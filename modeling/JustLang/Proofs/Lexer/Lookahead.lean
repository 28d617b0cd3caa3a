import JustLang.Proofs.Lexeme.Lookahead
import JustLang.Proofs.Lexer.Spacing
import JustLang.Proofs.Lexer.Tiling

namespace JustLang

theorem Text.take_append_of_take {t t' : Text} {n : Nat} (s : Text) (h : t.take n = t'.take n) :
    (s ++ t).take n = (s ++ t').take n := by
  have hle : n - s.length ≤ n := Nat.sub_le n s.length
  have htake : t.take (n - s.length) = t'.take (n - s.length) := by
    have hshort := congrArg (List.take (n - s.length)) h
    rwa [List.take_take, List.take_take, Nat.min_eq_left hle] at hshort
  rw [List.take_append, List.take_append, htake]

namespace Lexer

open Text (spaces)

variable {l l' next next' : Lexer} {u u' : Token} {us tokens : List Token} {w : Lexeme}
  {p s t t' gap : Text} {n : Nat}

-- Two tokens that are emitted at the same place are the same if their lexemes are.
theorem Emits.eq_of_toLexeme (h : l.Emits gap u next) (h' : l'.Emits gap u' next')
    (hcursor : l'.cursor = l.cursor) (hu : u'.toLexeme = u.toLexeme) :
    u' = u ∧ next'.cursor = next.cursor := by
  have htext : u'.text = u.text := congrArg Lexeme.text hu
  constructor
  · calc u' = ⟨u'.toLexeme, u'.line, u'.column⟩ := rfl
      _ = ⟨u.toLexeme, u.line, u.column⟩ := by
        rw [hu, h'.line, h'.column, hcursor, ← h.line, ← h.column]
  · rw [h'.reads.cursor, h.reads.cursor, hcursor, htext]

section Next

theorem step_of_next_ok (h : l.next.1 = .ok u) (hne : u.text ≠ []) :
    ∃ next, l.step = .token u next := by
  rcases l.next_eq_cases with ⟨v, next, hstep, hnext⟩ | ⟨-, hnext⟩ | ⟨d, -, hnext⟩
  · rw [hnext] at h
    obtain rfl : v = u := Except.ok.inj h
    exact ⟨next, hstep⟩
  · rw [hnext] at h
    rw [← Except.ok.inj h] at hne
    exact absurd rfl hne
  · rw [hnext] at h
    cases h

theorem next_ok_of_take (h : l.next.1 = .ok u) (hne : u.text ≠ []) (hrest : l.rest = u.text ++ t)
    (hrest' : l'.rest = u.text ++ t') (hcursor : l'.cursor = l.cursor)
    (ht : t.take 3 = t'.take 3) : l'.next.1 = .ok u := by
  obtain ⟨next, hstep⟩ := step_of_next_ok h hne
  obtain ⟨hemits, -, hread⟩ := emits_of_spaced (n := 0) hstep hrest
  have hread' := Lexeme.read?_append_of_take hread ht
  obtain ⟨u', next', hstep', hu', hemits', -⟩ := step_of_spaced (n := 0) hrest' hread'
  obtain ⟨rfl, -⟩ := hemits.eq_of_toLexeme hemits' hcursor hu'
  rw [next_of_token hstep']

end Next

-- Behind so many spaces recovery takes the token, and goes on from the second lexer.
structure Takes (l : Lexer) (n : Nat) (u : Token) (next : Lexer) : Prop
    extends Emits l (spaces n) u next where
  head_ne_space : u.text.head? ≠ some ' '
  taken : Lexeme.taken? (u.text ++ next.rest) = some u.toLexeme
  tokens : l.recover.1.tokens = u :: next.recover.1.tokens

namespace Takes

theorem rest_eq (h : l.Takes n u next) : l.rest = spaces n ++ (u.text ++ next.rest) := by
  rw [h.reads.rest, List.append_assoc]

theorem of_emits (h : l.Emits l.rest.leadingSpaces u next)
    (htaken : Lexeme.taken? l.afterSpaces.rest = some u.toLexeme)
    (htokens : l.recover.1.tokens = u :: next.recover.1.tokens) :
    l.Takes l.rest.leadingSpaces.length u next := by
  have hgap : l.rest.leadingSpaces = spaces l.rest.leadingSpaces.length :=
    List.eq_replicate_of_mem h.spaces
  have hafter : l.afterSpaces.rest = u.text ++ next.rest := by
    have hreads := h.reads.rest
    rw [List.append_assoc] at hreads
    exact List.append_cancel_left (l.reads_afterSpaces.rest.symm.trans hreads)
  refine ⟨hgap ▸ h, ?_, hafter ▸ htaken, htokens⟩
  obtain ⟨c, s, hcons⟩ := List.exists_cons_of_ne_nil h.emitted.ne_nil
  rw [hcons, List.cons_append] at hafter
  simpa [hcons] using ne_space_of_rest_afterSpaces hafter

end Takes

theorem finish_or_takes (l : Lexer) :
    (l.afterSpaces.rest = [] ∧ l.recover.1.tokens = []) ∨
      ∃ u next, l.Takes l.rest.leadingSpaces.length u next := by
  cases h : l.step with
  | finish last =>
      obtain ⟨rfl, hrest⟩ := eq_of_finish h
      exact .inl ⟨hrest, by rw [recover_of_finish h]⟩
  | token u next =>
      have htaken := Lexeme.taken?_of_read? (eq_of_token h).1
      exact .inr ⟨u, next, .of_emits (emits_of_token h) htaken (by rw [recover_of_token h])⟩
  | fault d before =>
      have hemits := emits_of_fault h
      have htokens : l.recover.1.tokens =
          before.skipped d :: (before.skip d).recover.1.tokens := by rw [recover_of_fault h]
      obtain ⟨rfl, c, s, hrest, hr, rfl⟩ := eq_of_fault h
      have htaken : Lexeme.taken? l.afterSpaces.rest = some (Lexeme.skipped c s) :=
        hrest ▸ Lexeme.taken?_of_read?_eq_none hr
      rw [skipped_eq_locate hrest] at hemits htokens
      exact .inr ⟨_, _, .of_emits hemits htaken htokens⟩

theorem exists_takes_of_tokens (h : l.recover.1.tokens = u :: us) :
    ∃ n next, l.Takes n u next ∧ next.recover.1.tokens = us := by
  rcases l.finish_or_takes with ⟨-, hnil⟩ | ⟨v, next, htakes⟩
  · rw [hnil] at h
    cases h
  · rw [htakes.tokens] at h
    obtain ⟨rfl, rfl⟩ := List.cons.inj h
    exact ⟨_, next, htakes, rfl⟩

theorem exists_takes_of_taken? (hrest : l.rest = spaces n ++ (w.text ++ t))
    (hw : (w.text ++ t).head? ≠ some ' ') (h : Lexeme.taken? (w.text ++ t) = some w) :
    ∃ u next, l.Takes n u next ∧ u.toLexeme = w ∧ next.rest = t := by
  obtain ⟨hspaces, hafter⟩ := rest_of_spaced hrest hw
  rcases l.finish_or_takes with ⟨hnil, -⟩ | ⟨u, next, htakes⟩
  · rw [← hafter, hnil] at h
    cases h
  · rw [hspaces, spaces, List.length_replicate] at htakes
    have hsplit : w.text ++ t = u.text ++ next.rest :=
      List.append_cancel_left (hrest.symm.trans htakes.rest_eq)
    have htaken := htakes.taken
    rw [← hsplit, h] at htaken
    obtain rfl : w = u.toLexeme := Option.some.inj htaken
    exact ⟨u, next, htakes, rfl, (List.append_cancel_left hsplit).symm⟩

-- The lexers stand at the same place. The text is before both, and they agree on the three
-- characters behind it.
structure Agree (p : Text) (l l' : Lexer) : Prop where
  rests : ∃ t t', l.rest = p ++ t ∧ l'.rest = p ++ t' ∧ t.take 3 = t'.take 3
  cursor : l'.cursor = l.cursor

-- A token that ends in the text is taken by both.
theorem Agree.takes (h : Agree (spaces n ++ u.text ++ p) l l') (htakes : l.Takes n u next) :
    ∃ next', l'.Takes n u next' ∧ Agree p next next' := by
  obtain ⟨t, t', hrest, hrest', ht⟩ := h.rests
  have hnext : next.rest = p ++ t := by
    have hrests := htakes.rest_eq.symm.trans hrest
    simp only [List.append_assoc, List.append_cancel_left_eq] at hrests
    exact hrests
  have htaken := htakes.taken
  rw [hnext] at htaken
  have htaken' := Lexeme.taken?_append_of_take htaken (Text.take_append_of_take p ht)
  have hhead : (u.text ++ (p ++ t')).head? ≠ some ' ' := by
    obtain ⟨c, s, hcons⟩ := List.exists_cons_of_ne_nil htakes.emitted.ne_nil
    have hc := htakes.head_ne_space
    rw [hcons] at hc ⊢
    exact hc
  have hsplit : l'.rest = spaces n ++ (u.text ++ (p ++ t')) := by
    rw [hrest', List.append_assoc, List.append_assoc]
  obtain ⟨u', next', htakes', hu', hnext'⟩ := exists_takes_of_taken? hsplit hhead htaken'
  obtain ⟨rfl, hcursor⟩ := htakes.eq_of_toLexeme htakes'.toEmits h.cursor hu'
  exact ⟨next', htakes', ⟨t, t', hnext, hnext', ht⟩, hcursor⟩

-- So are the tokens that spell a beginning of the text.
theorem Agree.isPrefix_tokens (h : Agree p l l') (htokens : tokens <+: l.recover.1.tokens)
    (hspell : Token.rebuild? l.cursor.column tokens = some s) (hs : s <+: p) :
    tokens <+: l'.recover.1.tokens := by
  induction tokens generalizing l l' p s with
  | nil => exact List.nil_prefix
  | cons u tokens ih =>
      obtain ⟨rest, hrest⟩ := htokens
      obtain ⟨n, next, htakes, hnext⟩ := exists_takes_of_tokens hrest.symm
      rw [htakes.rebuild?_cons] at hspell
      obtain ⟨spelled, hspelled, rfl⟩ := Option.map_eq_some_iff.mp hspell
      obtain ⟨q, rfl⟩ := hs
      rw [List.append_assoc] at h
      obtain ⟨next', htakes', hagree⟩ := h.takes htakes
      have htail := ih hagree ⟨rest, hnext.symm⟩ hspelled (List.prefix_append spelled q)
      rw [htakes'.tokens]
      exact List.cons_prefix_cons.mpr ⟨rfl, htail⟩

end Lexer

namespace Text

-- Three characters behind a token settle it. A source may be changed in any way behind them, and
-- all tokens of the text before them stay as they are.
theorem bounded_lookahead (s t t' : Text) (file? other? : Option String)
    (h : t.take 3 = t'.take 3) :
    (∀ u, s ≠ [] → (Lexer.ofText (s ++ t) file?).next.1 = .ok u → u.text = s →
      (Lexer.ofText (s ++ t') other?).next.1 = .ok u) ∧
    ∀ tokens spelled, tokens <+: ((s ++ t).recover file?).tokens →
      Token.rebuild? 0 tokens = some spelled → spelled <+: s →
      tokens <+: ((s ++ t').recover other?).tokens := by
  constructor
  · rintro u hne hnext rfl
    exact Lexer.next_ok_of_take hnext hne rfl rfl rfl h
  · intro tokens spelled htokens hspell hs
    have hagree : Lexer.Agree s (Lexer.ofText (s ++ t) file?) (Lexer.ofText (s ++ t') other?) :=
      ⟨⟨t, t', rfl, rfl, h⟩, rfl⟩
    exact hagree.isPrefix_tokens htokens hspell hs

-- What looks like an exponent is none in either text.
theorem bounded_lookahead_at_exponent :
    "e+.5".toList.take 3 = "e+. \"b".toList.take 3 ∧
    (Lexer.ofText "1e+. \"b".toList none).next.1 = .ok ⟨⟨.integer, ['1']⟩, 0, 0⟩ ∧
    [⟨⟨.unrecognized, "\"a".toList⟩, 0, 0⟩, ⟨⟨.newline, ['\n']⟩, 0, 2⟩,
      ⟨⟨.unrecognized, ['~']⟩, 1, 0⟩, ⟨⟨.integer, ['1']⟩, 1, 2⟩] <+:
      (recover "\"a\n~ 1e+. \"b".toList none).tokens := by
  have htake : "e+.5".toList.take 3 = "e+. \"b".toList.take 3 := by decide
  have hnext : (Lexer.ofText "1e+.5".toList none).next.1 = .ok ⟨⟨.integer, ['1']⟩, 0, 0⟩ := by
    decide +kernel
  have htokens : [⟨⟨.unrecognized, "\"a".toList⟩, 0, 0⟩, ⟨⟨.newline, ['\n']⟩, 0, 2⟩,
      ⟨⟨.unrecognized, ['~']⟩, 1, 0⟩, ⟨⟨.integer, ['1']⟩, 1, 2⟩] <+:
      (recover "\"a\n~ 1e+.5".toList none).tokens := by decide +kernel
  have hline := (bounded_lookahead "1".toList _ _ none none htake).1 _ (by decide) hnext rfl
  have hsource := (bounded_lookahead "\"a\n~ 1".toList _ _ none none htake).2 _ _ htokens rfl
    List.prefix_rfl
  exact ⟨htake, hline, hsource⟩

-- Two characters would not do. It takes the third to complete an exponent.
example : "e+5".toList.take 2 = "e+.".toList.take 2 ∧
    Lexeme.read? "1e+5".toList ≠ Lexeme.read? "1e+.".toList := by
  decide +kernel

end Text

end JustLang
