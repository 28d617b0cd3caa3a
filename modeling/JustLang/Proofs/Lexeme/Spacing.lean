import JustLang.Proofs.Lexeme.LongestMatch

namespace JustLang

namespace Text

variable {s t : Text}

-- What a text holds before its first space.
def beforeSpace (s : Text) : Text := s.takeWhile (· ≠ ' ')

theorem isPrefix_beforeSpace (h : s <+: t) (hs : ' ' ∉ s) : s <+: t.beforeSpace := by
  obtain ⟨rest, rfl⟩ := h
  have hall : ∀ c ∈ s, (c ≠ ' ' : Bool) := by
    intro c hc
    exact decide_eq_true (ne_of_mem_of_not_mem hc hs)
  rw [beforeSpace, List.takeWhile_append_of_pos hall]
  exact List.prefix_append _ _

end Text

namespace Lexeme

open Vocabulary (punctuation)

variable {s t t' : Text} {w : Lexeme} {c : Char}

-- Only string literals hold spaces.
theorem mem_literals_of_space_mem (h : s ∈ lexemes) (hs : ' ' ∈ s) :
    s ∈ StringLiteral.literals := by
  rcases h with ((h | h) | ⟨kind, h⟩) | h
  · exact absurd hs (Numeral.space_notMem_of_mem_numerals h)
  · exact h
  · have hall : ∀ e ∈ punctuation, ' ' ∉ e.2 := by decide
    exact absurd hs (hall _ h)
  · exact absurd (continuesWord_of_mem_words h _ hs) (by decide)

theorem ne_space_of_mem_lexemes (h : c :: s ∈ lexemes) : c ≠ ' ' := by
  rintro rfl
  have hquote := StringLiteral.head_of_mem_literals
    (mem_literals_of_space_mem h List.mem_cons_self)
  exact absurd hquote (by decide)

theorem head?_append_ne_space (h : w.text ∈ lexemes) (hne : w.text ≠ []) (t : Text) :
    (w.text ++ t).head? ≠ some ' ' := by
  obtain ⟨c, s, hcons⟩ := List.exists_cons_of_ne_nil hne
  rw [hcons] at h ⊢
  simpa using ne_space_of_mem_lexemes h

-- A longer lexeme could only begin with the same string literal or end before the next space.
theorem read?_append_of_beforeSpace (h : read? (w.text ++ t) = some w)
    (ht : t'.beforeSpace <+: t) : read? (w.text ++ t') = some w := by
  have hlongest := longestPrefix_of_read? h
  refine read?_of_longestPrefix ⟨hlongest.ne_nil, List.prefix_append _ _, hlongest.mem, ?_⟩
    (hasKind_of_read? h)
  intro u hu hmem
  rcases Text.isPrefix_append hu with hshort | ⟨v, rfl, hv⟩
  · exact hshort.length_le
  · by_cases hspace : ' ' ∈ w.text ++ v
    · have hliteral := mem_literals_of_space_mem hmem hspace
      have hw : w.text ∈ StringLiteral.literals := by
        obtain ⟨c, s, hcons⟩ := List.exists_cons_of_ne_nil hlongest.ne_nil
        have hmemw := hlongest.mem
        rw [hcons] at hliteral hmemw ⊢
        exact mem_literals_of_mem_lexemes hliteral hmemw
      have heq := StringLiteral.eq_of_isPrefix hw hliteral (List.prefix_append w.text v)
      rw [← heq]
    · apply hlongest.length_le _ ?_ hmem
      have hnospace : ' ' ∉ v := fun hm => hspace (List.mem_append_right _ hm)
      exact (List.prefix_append_right_inj w.text).mpr
        ((Text.isPrefix_beforeSpace hv hnospace).trans ht)

-- Every lexeme is read whole before a space and at the end of the text.
theorem exists_read?_append (h : s ∈ lexemes) (ht : t.beforeSpace = []) :
    ∃ kind, read? (s ++ t) = some ⟨kind, s⟩ := by
  cases hr : read? s with
  | none => exact absurd h (notMem_of_read?_eq_none hr List.prefix_rfl)
  | some w =>
      obtain ⟨kind, text⟩ := w
      obtain rfl : text = s := (longestPrefix_of_read? hr).eq_of_mem h
      refine ⟨kind, read?_append_of_beforeSpace (w := ⟨kind, text⟩) (t := []) ?_ ?_⟩
      · rwa [List.append_nil]
      · rw [ht]

end Lexeme

end JustLang
