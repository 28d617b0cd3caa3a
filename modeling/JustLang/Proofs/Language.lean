import JustLang.Text
import Mathlib.Computability.Language

namespace JustLang.Text

open Computability

-- The texts of one character of the class.
def single (p : Char → Bool) : Language Char := {s | ∃ c, p c ∧ s = [c]}

variable {p : Char → Bool} {c : Char} {s t : Text} {L M : Language Char}

@[simp] theorem nil_notMem_single : [] ∉ single p := by
  intro hnil
  obtain ⟨c, -, h⟩ := hnil
  cases h

@[simp] theorem cons_mem_single : c :: s ∈ single p ↔ p c ∧ s = [] := by
  constructor
  · intro hcons
    obtain ⟨d, hd, h⟩ := hcons
    cases h
    exact ⟨hd, rfl⟩
  · intro hright
    obtain ⟨hc, rfl⟩ := hright
    exact ⟨c, hc, rfl⟩

@[simp] theorem nil_mem_mul : [] ∈ L * M ↔ [] ∈ L ∧ [] ∈ M := by
  rw [Language.mem_mul]
  constructor
  · intro hmul
    obtain ⟨a, ha, b, hb, h⟩ := hmul
    obtain ⟨rfl, rfl⟩ := List.append_eq_nil_iff.mp h
    exact ⟨ha, hb⟩
  · intro hnil
    obtain ⟨hL, hM⟩ := hnil
    exact ⟨[], hL, [], hM, rfl⟩

@[simp] theorem cons_mem_single_mul : c :: s ∈ single p * L ↔ p c ∧ s ∈ L := by
  rw [Language.mem_mul]
  constructor
  · intro hmul
    obtain ⟨a, ⟨d, hd, rfl⟩, b, hb, h⟩ := hmul
    cases h
    exact ⟨hd, hb⟩
  · intro hright
    obtain ⟨hc, hs⟩ := hright
    exact ⟨[c], ⟨c, hc, rfl⟩, s, hs, rfl⟩

-- Reading a repetition either begins one more round or leaves it.
theorem kstar_mul (L M : Language Char) : L∗ * M = L * (L∗ * M) + M := by
  calc L∗ * M = (1 + L * L∗) * M := by rw [Language.one_add_self_mul_kstar_eq_kstar]
    _ = L * (L∗ * M) + M := by rw [add_mul, one_mul, mul_assoc, add_comm]

@[simp] theorem cons_mem_kstar_single_mul :
    c :: s ∈ (single p)∗ * L ↔ (p c ∧ s ∈ (single p)∗ * L) ∨ c :: s ∈ L := by
  have h : c :: s ∈ (single p)∗ * L ↔ c :: s ∈ single p * ((single p)∗ * L) + L := by
    rw [← kstar_mul]
  rw [h, Language.mem_add, cons_mem_single_mul]

@[simp] theorem cons_mem_kstar_single : c :: s ∈ (single p)∗ ↔ p c ∧ s ∈ (single p)∗ := by
  have h : c :: s ∈ (single p)∗ * 1 ↔ (p c ∧ s ∈ (single p)∗ * 1) ∨ c :: s ∈ (1 : Language Char) :=
    cons_mem_kstar_single_mul
  simpa using h

-- A repetition of a class holds the texts all of whose characters are in the class.
theorem mem_kstar_single : s ∈ (single p)∗ ↔ ∀ c ∈ s, p c := by
  induction s with
  | nil => simp [Language.nil_mem_kstar]
  | cons c s ih => simp [ih]

-- A prefix of two texts in a row ends in the first or goes on into the second.
theorem isPrefix_append {u : Text} (h : u <+: s ++ t) :
    u <+: s ∨ ∃ v, u = s ++ v ∧ v <+: t := by
  rcases List.prefix_or_prefix_of_prefix h (List.prefix_append s t) with hs | hs
  · exact .inl hs
  · obtain ⟨v, rfl⟩ := hs
    exact .inr ⟨v, rfl, (List.prefix_append_right_inj s).mp h⟩

structure LongestPrefix (L : Language Char) (s t : Text) : Prop where
  ne_nil : t ≠ []
  isPrefix : t <+: s
  mem : t ∈ L
  length_le : ∀ u, u <+: s → u ∈ L → u.length ≤ t.length

namespace LongestPrefix

theorem unique {u : Text} (ht : LongestPrefix L s t) (hu : LongestPrefix L s u) : t = u := by
  have htu := hu.length_le t ht.isPrefix ht.mem
  have hut := ht.length_le u hu.isPrefix hu.mem
  exact (List.prefix_of_prefix_length_le ht.isPrefix hu.isPrefix htu).eq_of_length
    (Nat.le_antisymm htu hut)

-- A prefix stays the longest in a larger language if what is new there is no longer.
theorem mono (ht : LongestPrefix L s t) (hmem : t ∈ M)
    (hnew : ∀ u, u <+: s → u ∈ M → u ∈ L ∨ u.length ≤ t.length) : LongestPrefix M s t where
  ne_nil := ht.ne_nil
  isPrefix := ht.isPrefix
  mem := hmem
  length_le u hs hu := by
    rcases hnew u hs hu with hL | hle
    · exact ht.length_le u hs hL
    · exact hle

-- All prefixes begin with the same character, so only what begins with it can be new.
theorem mono_of_head (ht : LongestPrefix L s t) (hmem : t ∈ M)
    (hnew : ∀ c t' u, t = c :: t' → c :: u ∈ M → c :: u ∈ L ∨ u = []) : LongestPrefix M s t := by
  refine ht.mono hmem ?_
  intro u hu hmemu
  cases u with
  | nil => exact .inr (Nat.zero_le _)
  | cons d u =>
      obtain ⟨c, t, rfl⟩ := List.exists_cons_of_ne_nil ht.ne_nil
      obtain ⟨rest, rfl⟩ := ht.isPrefix
      obtain ⟨rfl, -⟩ := List.cons_prefix_cons.mp hu
      rcases hnew d t u rfl hmemu with hL | rfl
      · exact .inl hL
      · exact .inr (by simp)

-- It is also the longest in any beginning of the text that still holds it.
theorem of_isPrefix {u : Text} (ht : LongestPrefix L s t) (htu : t <+: u) (hus : u <+: s) :
    LongestPrefix L u t where
  ne_nil := ht.ne_nil
  isPrefix := htu
  mem := ht.mem
  length_le v hv hmem := ht.length_le v (hv.trans hus) hmem

theorem head_mem (ht : LongestPrefix L (c :: s) t) : ∃ u, c :: u ∈ L := by
  obtain ⟨d, u, rfl⟩ := List.exists_cons_of_ne_nil ht.ne_nil
  obtain ⟨rfl, -⟩ := List.cons_prefix_cons.mp ht.isPrefix
  exact ⟨u, ht.mem⟩

-- A text of the language is its own longest prefix.
theorem eq_of_mem (ht : LongestPrefix L s t) (hs : s ∈ L) : t = s :=
  ht.isPrefix.eq_of_length
    (Nat.le_antisymm ht.isPrefix.length_le (ht.length_le s List.prefix_rfl hs))

end LongestPrefix

end JustLang.Text
