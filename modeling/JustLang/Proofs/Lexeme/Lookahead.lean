import JustLang.Proofs.Lexeme.Plain
import JustLang.Proofs.Lexeme.Spacing

namespace JustLang.Lexeme

open Text (LongestPrefix)

variable {s t t' : Text} {c : Char} {w : Lexeme}

-- No character of a word is needed for those before it to be a word.
theorem mem_words_of_isPrefix (h : s ∈ words) (ht : t <+: s) (hne : t ≠ []) : t ∈ words := by
  obtain ⟨hs, harrow⟩ := (Language.mem_sub _ _ _).mp h
  obtain ⟨c, t, rfl⟩ := List.exists_cons_of_ne_nil hne
  obtain ⟨rest, rfl⟩ := ht
  rw [List.cons_append, Text.cons_mem_single_mul, Text.mem_kstar_single] at hs
  refine (Language.mem_sub _ _ _).mpr ⟨?_, fun ha => harrow (ha.trans (List.prefix_append _ rest))⟩
  rw [Text.cons_mem_single_mul, Text.mem_kstar_single]
  exact ⟨hs.1, fun d hd => hs.2 d (List.mem_append_left rest hd)⟩

-- Of two lexemes one of which begins the other, the longer is reached over lexemes that are no more
-- than three characters apart. Only numerals need as many: the 1 of 1e+5 is one, and 1e and 1e+ are
-- none.
theorem exists_nearer (hs : s ∈ lexemes) (hne : s ≠ []) (h : s ++ t ∈ lexemes) (ht : t ≠ []) :
    ∃ u, u ≠ [] ∧ u <+: t ∧ u.length ≤ 3 ∧ s ++ u ∈ lexemes := by
  rcases h with ((h | h) | ⟨kind, h⟩) | h
  · obtain ⟨u, hu, hut, hlength, hmem⟩ := Numeral.exists_nearer h ht
    exact ⟨u, hu, hut, hlength, .inl (.inl (.inl hmem))⟩
  · obtain ⟨c, s, rfl⟩ := List.exists_cons_of_ne_nil hne
    have hliteral := mem_literals_of_mem_lexemes h hs
    have heq := StringLiteral.eq_of_isPrefix hliteral h (List.prefix_append _ t)
    exact absurd (List.self_eq_append_right.mp heq) ht
  · have hlength : (s ++ t).length ≤ 2 := by
      rcases Vocabulary.length_of_mem_punctuation h with hone | ⟨harrow, -⟩
      · omega
      · rw [harrow]
        decide
    rw [List.length_append] at hlength
    exact ⟨t, ht, List.prefix_rfl, by omega, .inl (.inr ⟨kind, h⟩)⟩
  · obtain ⟨c, t, rfl⟩ := List.exists_cons_of_ne_nil ht
    have hbefore : s ++ [c] <+: s ++ c :: t :=
      (List.prefix_append_right_inj s).mpr (List.prefix_append [c] t)
    refine ⟨[c], List.cons_ne_nil c [], List.prefix_append [c] t, by simp, .inr ?_⟩
    exact mem_words_of_isPrefix h hbefore (by simp)

-- A lexeme that could go on in another way would do so within the three characters.
theorem longestPrefix_of_take (h : LongestPrefix lexemes (s ++ t) s)
    (ht : t.take 3 = t'.take 3) : LongestPrefix lexemes (s ++ t') s where
  ne_nil := h.ne_nil
  isPrefix := List.prefix_append s t'
  mem := h.mem
  length_le u hu hmem := by
    rcases Text.isPrefix_append hu with hshort | ⟨v, rfl, hv⟩
    · exact hshort.length_le
    · by_contra hlonger
      have hne : v ≠ [] := by
        rintro rfl
        simp at hlonger
      obtain ⟨near, hnear, hbefore, hlength, hnearmem⟩ := exists_nearer h.mem h.ne_nil hmem hne
      have htake : near <+: t'.take 3 := List.prefix_take_iff.mpr ⟨hbefore.trans hv, hlength⟩
      rw [← ht] at htake
      have hbegins : s ++ near <+: s ++ t :=
        (List.prefix_append_right_inj s).mpr (htake.trans (List.take_prefix 3 t))
      have hle := h.length_le _ hbegins hnearmem
      have hpos := List.length_pos_iff.mpr hnear
      rw [List.length_append] at hle
      omega

theorem read?_append_of_take (h : read? (w.text ++ t) = some w) (ht : t.take 3 = t'.take 3) :
    read? (w.text ++ t') = some w :=
  read?_of_longestPrefix (longestPrefix_of_take (longestPrefix_of_read? h) ht)
    (hasKind_of_read? h)

section Fault

-- Apart from the quote, a character that begins a lexeme is one.
theorem singleton_mem_lexemes_of_mem (h : c :: s ∈ lexemes) (hc : c ≠ '"') : [c] ∈ lexemes := by
  have hplain : Alphabet.isPlain c := by
    rcases h with ((h | h) | ⟨kind, h⟩) | h
    · exact Numeral.isPlain_of_mem_numerals h c List.mem_cons_self
    · exact absurd (StringLiteral.head_of_mem_literals h) hc
    · exact isPlain_of_mem_punctuation h c List.mem_cons_self
    · exact isPlain_of_mem_words h c List.mem_cons_self
  exact singleton_mem_lexemes hplain (ne_space_of_mem_lexemes h)

theorem read?_eq_none_of_ne_quote (h : read? (c :: s) = none) (hc : c ≠ '"') (t : Text) :
    read? (c :: t) = none := by
  refine Option.eq_none_iff_forall_ne_some.mpr fun w hw => ?_
  obtain ⟨u, hu⟩ := (longestPrefix_of_read? hw).head_mem
  exact notMem_of_read?_eq_none h (List.prefix_append [c] s) (singleton_mem_lexemes_of_mem hu hc)

-- What recovery makes a token of: the lexeme that the text begins with, or what is passed over
-- where there is none.
def taken? : Text → Option Lexeme
  | [] => none
  | c :: s => some ((read? (c :: s)).getD (skipped c s))

theorem taken?_of_read? (h : read? s = some w) : taken? s = some w := by
  cases s with
  | nil => cases h
  | cons c s => rw [taken?, h, Option.getD_some]

theorem taken?_of_read?_eq_none (h : read? (c :: s) = none) :
    taken? (c :: s) = some (skipped c s) := by
  rw [taken?, h, Option.getD_none]

theorem taken?_text_ne_nil (h : taken? s = some w) : w.text ≠ [] := by
  cases s with
  | nil => cases h
  | cons c s =>
      cases hr : read? (c :: s) with
      | none =>
          rw [taken?_of_read?_eq_none hr] at h
          cases h
          exact skipped_text_ne_nil c s
      | some v =>
          rw [taken?_of_read? hr] at h
          cases h
          exact (read?_text hr).1

-- An open quote is passed over up to the newline, which is the next character wherever it is not
-- the end.
theorem taken?_quote_of_take (hr : read? ('"' :: s ++ t) = none)
    (htext : (skipped '"' (s ++ t)).text = '"' :: s) (ht : t.take 3 = t'.take 3) :
    taken? ('"' :: s ++ t') = some (skipped '"' (s ++ t)) := by
  obtain ⟨tail, hsplit, htail⟩ := exists_skipped_quote_append (s ++ t)
  rw [htext, ← List.cons_append, List.append_cancel_left_eq] at hsplit
  subst hsplit
  rcases htail with rfl | ⟨r, rfl⟩
  · obtain rfl : t' = [] := by simpa using ht.symm
    exact taken?_of_read?_eq_none hr
  · cases t' with
    | nil => cases ht
    | cons d r' =>
        obtain ⟨rfl, -⟩ := List.cons.inj ht
        rw [read?_append_newline] at hr
        have hr' := (read?_append_newline '"' s r').trans hr
        rw [skipped_append_newline, ← skipped_append_newline '"' s r']
        exact taken?_of_read?_eq_none hr'

theorem taken?_append_of_take (h : taken? (w.text ++ t) = some w) (ht : t.take 3 = t'.take 3) :
    taken? (w.text ++ t') = some w := by
  obtain ⟨c, s, hcons⟩ := List.exists_cons_of_ne_nil (taken?_text_ne_nil h)
  rw [hcons] at h ⊢
  cases hr : read? (c :: s ++ t) with
  | some v =>
      rw [taken?_of_read? hr] at h
      obtain rfl : v = w := Option.some.inj h
      rw [← hcons] at hr ⊢
      exact taken?_of_read? (read?_append_of_take hr ht)
  | none =>
      have htaken : taken? (c :: s ++ t) = some (skipped c (s ++ t)) := taken?_of_read?_eq_none hr
      rw [htaken] at h
      obtain rfl : skipped c (s ++ t) = w := Option.some.inj h
      by_cases hc : c = '"'
      · subst hc
        exact taken?_quote_of_take hr hcons ht
      · rw [skipped_of_ne_quote hc] at hcons ⊢
        obtain rfl : s = [] := (List.cons.inj hcons).2.symm
        have hr' := read?_eq_none_of_ne_quote hr hc t'
        rw [List.singleton_append, taken?_of_read?_eq_none hr', skipped_of_ne_quote hc]

end Fault

end JustLang.Lexeme
