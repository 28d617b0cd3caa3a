import JustLang.Proofs.Language

namespace JustLang.Text

open Computability

variable {L : Language Char} {s t u : Text}

structure IsCode (L : Language Char) : Prop where
  nil_notMem : [] ∉ L
  eq_of_isPrefix : ∀ u ∈ L, ∀ v ∈ L, u <+: v → u = v

theorem append_mem_kstar (hs : s ∈ L∗) (ht : t ∈ L∗) : s ++ t ∈ L∗ := by
  rw [← kstar_mul_kstar]
  exact Language.append_mem_mul hs ht

theorem exists_isPrefix_of_mem_kstar (h : s ∈ L∗) (hne : s ≠ []) :
    ∃ u ∈ L, u ≠ [] ∧ u <+: s := by
  obtain ⟨pieces, rfl, hpieces⟩ := Language.mem_kstar_iff_exists_nonempty.mp h
  cases pieces with
  | nil => exact absurd rfl hne
  | cons u pieces =>
      obtain ⟨hu, hnil⟩ := hpieces u List.mem_cons_self
      exact ⟨u, hu, hnil, List.prefix_append u pieces.flatten⟩

-- What follows a beginning in the repetition is in the repetition, since the pieces of the whole
-- cannot be cut otherwise.
theorem IsCode.mem_kstar_of_append (hL : IsCode L) (hs : s ∈ L∗) (h : s ++ t ∈ L∗) : t ∈ L∗ := by
  obtain ⟨pieces, rfl, hpieces⟩ := Language.mem_kstar.mp hs
  clear hs
  induction pieces with
  | nil => exact h
  | cons u pieces ih =>
      obtain ⟨hu, hpieces⟩ := List.forall_mem_cons.mp hpieces
      rw [List.flatten_cons, List.append_assoc] at h
      obtain ⟨others, heq, hothers⟩ := Language.mem_kstar.mp h
      cases others with
      | nil =>
          have hnil := (List.append_eq_nil_iff.mp heq).1
          exact absurd (hnil ▸ hu) hL.nil_notMem
      | cons v others =>
          obtain ⟨hv, hothers⟩ := List.forall_mem_cons.mp hothers
          rw [List.flatten_cons] at heq
          have hup : u <+: v ++ others.flatten := heq ▸ List.prefix_append u _
          have huv : u = v := by
            rcases List.prefix_or_prefix_of_prefix hup (List.prefix_append v _) with huv | hvu
            · exact hL.eq_of_isPrefix u hu v hv huv
            · exact (hL.eq_of_isPrefix v hv u hu hvu).symm
          rw [huv, List.append_cancel_left_eq] at heq
          exact ih hpieces (Language.mem_kstar.mpr ⟨others, heq, hothers⟩)

-- How far a text goes in a language, which may be nowhere if the language has the empty text.
structure Furthest (L : Language Char) (s t : Text) : Prop where
  isPrefix : t <+: s
  mem : t ∈ L
  length_le : ∀ u, u <+: s → u ∈ L → u.length ≤ t.length

namespace Furthest

-- A text that goes further than its furthest prefix is not in the language.
theorem notMem (h : Furthest L s t) (hne : s ≠ t) : s ∉ L := by
  intro hs
  have hlength := Nat.le_antisymm h.isPrefix.length_le (h.length_le s List.prefix_rfl hs)
  exact hne (h.isPrefix.eq_of_length hlength).symm

theorem nil (h : ∀ u ∈ L, u ≠ [] → ¬ u <+: s) : Furthest L∗ s [] where
  isPrefix := List.nil_prefix
  mem := Language.nil_mem_kstar L
  length_le u hu hmem := by
    by_cases hne : u = []
    · rw [hne]
    · obtain ⟨v, hv, hvne, hvu⟩ := exists_isPrefix_of_mem_kstar hmem hne
      exact absurd (hvu.trans hu) (h v hv hvne)

-- A beginning in the repetition is read first, and what follows as if it stood alone.
theorem append (hL : IsCode L) (hs : s ∈ L∗) (h : Furthest L∗ t u) :
    Furthest L∗ (s ++ t) (s ++ u) where
  isPrefix := (List.prefix_append_right_inj s).mpr h.isPrefix
  mem := append_mem_kstar hs h.mem
  length_le v hv hmem := by
    rcases isPrefix_append hv with hvs | ⟨w, rfl, hw⟩
    · have hle := hvs.length_le
      rw [List.length_append]
      omega
    · have hle := h.length_le w hw (hL.mem_kstar_of_append hs hmem)
      simp only [List.length_append]
      omega

end Furthest

end JustLang.Text
