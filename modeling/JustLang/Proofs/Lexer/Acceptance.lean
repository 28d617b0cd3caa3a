import JustLang.Proofs.Lexeme.Plain
import JustLang.Proofs.Lexer.Fault

namespace JustLang

open Text (readable Furthest)

namespace Lexer

variable {l next before : Lexer} {u : Token} {d : Diagnostic}

-- Where there is a fault, no piece of a source that could be read begins.
theorem furthest_nil {c : Char} {s : Text} (h : Lexeme.read? (c :: s) = none) (hc : c ≠ ' ') :
    Furthest readable (c :: s) [] := by
  refine Furthest.nil fun u hu hne hprefix => ?_
  obtain ⟨d, u, rfl⟩ := List.exists_cons_of_ne_nil hne
  obtain ⟨rfl, -⟩ := List.cons_prefix_cons.mp hprefix
  exact Lexeme.notMem_of_read?_eq_none h hprefix (Lexeme.mem_lexemes_of_mem_pieces hu hc)

theorem leadingSpaces_mem_readable (l : Lexer) : l.rest.leadingSpaces ∈ readable :=
  Text.mem_readable_of_spaces fun _ hc => Text.eq_space_of_mem_leadingSpaces hc

theorem mem_readable_of_token (h : l.step = .token u next) :
    l.rest.leadingSpaces ++ u.text ∈ readable := by
  have hkind := Lexeme.hasKind_of_read? (eq_of_token h).1
  exact Text.append_mem_kstar l.leadingSpaces_mem_readable hkind.mem_readable

-- What a strict reader finds in the text before it: that all of it can be read, or the place up to
-- which it can.
inductive Verdict (l : Lexer) : Except Diagnostic (List Token) → Prop where
  | readable {tokens : List Token} : l.rest ∈ readable → Verdict l (.ok tokens)
  | fault {d : Diagnostic} {p s : Text} {c : Char} :
      l.FaultAt d p c s → Furthest readable l.rest p → Verdict l (.error d)

theorem verdict_of_fault (h : l.step = .fault d before) : l.Verdict (.error d) := by
  obtain ⟨c, s, hpassed⟩ := passedAt_of_fault h
  have hfurthest := (furthest_nil hpassed.unread hpassed.ne_space).append
    Text.isCode_pieces l.leadingSpaces_mem_readable
  rw [← hpassed.rest, List.append_nil] at hfurthest
  exact .fault hpassed.toFaultAt hfurthest

-- The text of a token is read in one piece, and what follows it as if it stood alone.
theorem Verdict.of_token {result : Except Diagnostic (List Token)}
    (h : l.step = .token u next) (hv : next.Verdict result) :
    l.Verdict (result.map (u :: ·)) := by
  have hread := mem_readable_of_token h
  have hreads := (emits_of_token h).reads
  cases hv with
  | readable hmem =>
      refine .readable ?_
      rw [hreads.rest]
      exact Text.append_mem_kstar hread hmem
  | fault hfault hfurthest =>
      have hall := hfurthest.append Text.isCode_pieces hread
      rw [← hreads.rest] at hall
      exact .fault (hfault.of_reads hreads) hall

theorem verdict_drain (hl : l.exhausted = false) : l.Verdict l.drain.1 := by
  induction l using induction_on_step with
  | finish l last h =>
      rw [drain_of_none (pull_of_finish hl h)]
      obtain ⟨rfl, hrest⟩ := eq_of_finish h
      refine .readable ?_
      rw [l.reads_afterSpaces.rest, hrest, List.append_nil]
      exact l.leadingSpaces_mem_readable
  | token l u next h ih =>
      rw [drain_of_ok (pull_of_token hl h)]
      exact .of_token h (ih ((exhausted_of_token h).trans hl))
  | fault l d before h _ =>
      rw [drain_of_error (pull_of_fault hl h)]
      exact verdict_of_fault h

end Lexer

namespace Text

-- A source is read without a fault exactly if it is made of plain characters and string literals.
-- Of any other source the longest such beginning is read, and the character behind it is at fault.
theorem tokens_ok_iff_mem_readable (source : Text) (file? : Option String) :
    ((∃ tokens, source.tokens file? = .ok tokens) ↔ source ∈ readable) ∧
    ∀ d, source.tokens file? = .error d →
      ∃ p c s, source = p ++ c :: s ∧ Furthest readable source p ∧
        d.position.offset = p.byteSize ∧
        (c = '"' → d.cause = .unterminatedString) ∧
        (c ≠ '"' → d.cause = .unrecognisedCharacter c) := by
  have hverdict : (Lexer.ofText source file?).Verdict (source.tokens file?) :=
    Lexer.verdict_drain rfl
  generalize source.tokens file? = result at hverdict
  cases hverdict with
  | readable hmem =>
      refine ⟨iff_of_true ⟨_, rfl⟩ hmem, ?_⟩
      intro d hd
      cases hd
  | @fault d p s c hfault hfurthest =>
      have hsource : source = p ++ c :: s := hfault.rest
      have hne : source ≠ p := by
        intro h
        have hlength := congrArg List.length hsource
        rw [h, List.length_append, List.length_cons] at hlength
        omega
      refine ⟨iff_of_false ?_ (hfurthest.notMem hne), ?_⟩
      · rintro ⟨tokens, htokens⟩
        cases htokens
      · intro e he
        obtain rfl : d = e := Except.error.inj he
        have hcause : d.cause = Lexeme.fault c := congrArg Diagnostic.cause hfault.eq
        have hoffset : d.position.offset = p.byteSize := by
          rw [hfault.eq]
          exact congrArg Cursor.offset (Cursor.after_start p)
        exact ⟨p, c, s, hsource, hfurthest, hoffset, fun hc => hcause.trans (if_pos hc),
          fun hc => hcause.trans (if_neg hc)⟩

end Text

end JustLang
