import JustLang.Lexer
import JustLang.Proofs.Lexeme.LongestMatch

namespace JustLang.Lexeme

variable {s : Text} {c : Char} {w : Lexeme} {kind : Kind}

theorem newline_notMem_of_mem_words (h : s ∈ words) : '\n' ∉ s := by
  intro hm
  exact absurd (continuesWord_of_mem_words h _ hm) (by decide)

-- A newline is only in a lexeme of its own.
theorem HasKind.eq_of_newline_mem (h : HasKind s kind) (hm : '\n' ∈ s) : s = ['\n'] := by
  cases h with
  | integer hs => exact absurd hm (Numeral.newline_notMem_of_mem_numerals (.inl (.inl hs)))
  | decimal hs _ => exact absurd hm (Numeral.newline_notMem_of_mem_numerals hs)
  | string hs => exact absurd hm (StringLiteral.newline_notMem_of_mem_literals hs)
  | registered hs => exact Vocabulary.eq_newline_of_mem_punctuation hs (.inr hm)
  | keyword hs _ => exact absurd hm (newline_notMem_of_mem_words hs)
  | identifier hs _ => exact absurd hm (newline_notMem_of_mem_words hs)

theorem hasKind_newline : HasKind ['\n'] .newline := .registered (by decide)

theorem HasKind.newline_iff (h : HasKind s kind) : kind = .newline ↔ s = ['\n'] := by
  constructor
  · intro hk
    subst hk
    cases h with
    | registered hs => exact Vocabulary.eq_newline_of_mem_punctuation hs (.inl rfl)
    | keyword _ hs => exact absurd rfl (Vocabulary.kind_ne_of_mem_keywords hs).1
  · intro hs
    subst hs
    exact h.unique hasKind_newline

-- The end of the input and what cannot be read are no lexemes.
theorem HasKind.kind_ne (h : HasKind s kind) : kind ≠ .endOfInput ∧ kind ≠ .unrecognized := by
  cases h with
  | integer _ => decide
  | decimal _ _ => decide
  | string _ => decide
  | registered hs => exact Vocabulary.kind_ne_of_mem_punctuation hs
  | keyword _ hs => exact (Vocabulary.kind_ne_of_mem_keywords hs).2
  | identifier _ _ => decide

theorem ne_newline_of_read?_eq_none (h : read? (c :: s) = none) : c ≠ '\n' := by
  intro hc
  subst hc
  exact notMem_of_read?_eq_none h (List.prefix_append ['\n'] s) hasKind_newline.mem_lexemes

theorem read?_newline (s : Text) : read? ('\n' :: s) = some ⟨.newline, ['\n']⟩ := by
  cases h : read? ('\n' :: s) with
  | none => exact absurd rfl (ne_newline_of_read?_eq_none h)
  | some w =>
      have ht := longestPrefix_of_read? h
      have hk := hasKind_of_read? h
      obtain ⟨kind, text⟩ := w
      obtain ⟨d, rest, rfl⟩ := List.exists_cons_of_ne_nil ht.ne_nil
      obtain ⟨rfl, -⟩ := List.cons_prefix_cons.mp ht.isPrefix
      obtain rfl : rest = [] := (List.cons.inj (hk.eq_of_newline_mem List.mem_cons_self)).2
      obtain rfl : kind = .newline := hk.newline_iff.mpr rfl
      rfl

-- What holds of all that becomes a token, text that cannot be read included.
structure Emitted (w : Lexeme) : Prop where
  ne_nil : w.text ≠ []
  ne_endOfInput : w.kind ≠ .endOfInput
  newline_iff : w.kind = .newline ↔ w.text = ['\n']
  eq_of_newline_mem : '\n' ∈ w.text → w.text = ['\n']

theorem emitted_of_read? (h : read? s = some w) : w.Emitted where
  ne_nil := (read?_text h).1
  ne_endOfInput := (hasKind_of_read? h).kind_ne.1
  newline_iff := (hasKind_of_read? h).newline_iff
  eq_of_newline_mem := (hasKind_of_read? h).eq_of_newline_mem

theorem newline_notMem_of_read? (h : read? (c :: s) = some w) (hc : c ≠ '\n') :
    '\n' ∉ w.text := by
  intro hm
  have heq := (emitted_of_read? h).eq_of_newline_mem hm
  have hbegins := (read?_text h).2
  rw [heq] at hbegins
  exact hc (List.cons_prefix_cons.mp hbegins).1.symm

-- What begins before a newline ends before it, unless it is the newline.
theorem isPrefix_of_newline {t v : Text} (hk : HasKind v kind)
    (hv : v <+: c :: s ++ '\n' :: t) : v <+: c :: s := by
  rcases Text.isPrefix_append hv with h | ⟨rest, rfl, hd⟩
  · exact h
  · cases rest with
    | nil => rw [List.append_nil]
    | cons d rest =>
        obtain ⟨rfl, -⟩ := List.cons_prefix_cons.mp hd
        have heq := hk.eq_of_newline_mem (by simp)
        have hlength := congrArg List.length heq
        simp at hlength

-- No lexeme depends on what is below its line.
theorem read?_append_newline (c : Char) (s t : Text) :
    read? (c :: s ++ '\n' :: t) = read? (c :: s) := by
  have hline : c :: s <+: c :: s ++ '\n' :: t := List.prefix_append _ _
  cases h : read? (c :: s ++ '\n' :: t) with
  | none =>
      symm
      refine Option.eq_none_iff_forall_ne_some.mpr fun w hw => ?_
      have ht := longestPrefix_of_read? hw
      exact notMem_of_read?_eq_none h (ht.isPrefix.trans hline) ht.mem
  | some w =>
      have ht := longestPrefix_of_read? h
      have hk := hasKind_of_read? h
      have htext := isPrefix_of_newline hk ht.isPrefix
      exact (read?_of_longestPrefix (ht.of_isPrefix htext hline) hk).symm

-- Why no lexeme begins with the character.
def fault (c : Char) : Cause :=
  if c = '"' then .unterminatedString else .unrecognisedCharacter c

-- What is passed over to go on after a fault, at which the text begins.
def skipped (c : Char) (s : Text) : Lexeme := ⟨.unrecognized, (fault c).span (c :: s)⟩

theorem skipped_of_ne_quote (hc : c ≠ '"') (s : Text) : skipped c s = ⟨.unrecognized, [c]⟩ := by
  simp only [skipped, fault, if_neg hc]
  rfl

theorem skipped_text (c : Char) (s : Text) :
    (skipped c s).text = if c = '"' then c :: s.takeWhile (· ≠ '\n') else [c] := by
  by_cases hc : c = '"'
  · subst hc
    rfl
  · rw [skipped_of_ne_quote hc, if_neg hc]

theorem skipped_isPrefix (c : Char) (s : Text) : (skipped c s).text <+: c :: s :=
  Cause.span_isPrefix _ _

theorem skipped_text_ne_nil (c : Char) (s : Text) : (skipped c s).text ≠ [] := by
  rw [skipped_text]
  split <;> exact List.cons_ne_nil _ _

theorem skipped_append_newline (c : Char) (s t : Text) :
    skipped c (s ++ '\n' :: t) = skipped c s := by
  have htext : (skipped c (s ++ '\n' :: t)).text = (skipped c s).text := by
    rw [skipped_text, skipped_text, Text.takeWhile_append_cons (by decide)]
  exact congrArg (Lexeme.mk .unrecognized) htext

theorem fault_eq_unterminatedString_iff : fault c = .unterminatedString ↔ c = '"' := by
  unfold fault
  split <;> simp_all

-- Behind an open quote everything up to the newline, or up to the end, is passed over.
theorem exists_skipped_quote_append (s : Text) :
    ∃ tail, '"' :: s = (skipped '"' s).text ++ tail ∧ (tail = [] ∨ ∃ t, tail = '\n' :: t) := by
  refine ⟨s.dropWhile (· ≠ '\n'), ?_, ?_⟩
  · have hsplit := List.takeWhile_append_dropWhile (p := (· ≠ '\n')) (l := s)
    exact (congrArg ('"' :: ·) hsplit).symm
  · have hhead := List.head?_dropWhile_not (· ≠ '\n') s
    cases htail : s.dropWhile (· ≠ '\n') with
    | nil => exact .inl rfl
    | cons d t =>
        rw [htail] at hhead
        obtain rfl : d = '\n' := by simpa using hhead
        exact .inr ⟨t, rfl⟩

theorem newline_notMem_skipped (h : read? (c :: s) = none) : '\n' ∉ (skipped c s).text := by
  have hc := ne_newline_of_read?_eq_none h
  intro hm
  rw [skipped_text] at hm
  split at hm
  · rcases List.mem_cons.mp hm with rfl | hm
    · exact hc rfl
    · simpa using List.mem_takeWhile_imp hm
  · exact hc (List.mem_singleton.mp hm).symm

theorem emitted_skipped (h : read? (c :: s) = none) : (skipped c s).Emitted := by
  have hn := newline_notMem_skipped h
  refine ⟨skipped_text_ne_nil c s, by simp [skipped], ?_, fun hm => absurd hm hn⟩
  constructor
  · intro hk
    cases hk
  · intro ht
    rw [ht] at hn
    exact absurd (List.mem_singleton_self _) hn

end JustLang.Lexeme
