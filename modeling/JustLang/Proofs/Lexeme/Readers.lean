import JustLang.Lexeme
import JustLang.Proofs.Language
import JustLang.Proofs.Lexicon
import JustLang.Proofs.Vocabulary
import Mathlib.Data.List.TakeWhile

namespace JustLang.Lexeme

open Computability
open Text (single LongestPrefix)
open Vocabulary (punctuation arrow)

variable {s t : Text} {w : Lexeme}

def registered : Language Char := {s | ∃ kind, (kind, s) ∈ punctuation}

def arrows : Language Char := {s | arrow <+: s}

-- An arrow is never the beginning of a word.
def words : Language Char :=
  single Alphabet.beginsWord * (single Alphabet.continuesWord)∗ - arrows

theorem mem_punctuation_of_symbol? (h : symbol? s = some w) : (w.kind, w.text) ∈ punctuation := by
  unfold symbol? at h
  split at h
  · next kind hk =>
      cases h
      exact List.mem_append.mpr (.inl (Lexicon.kind?_eq_some_iff.mp hk))
  · obtain ⟨kind, hk, rfl⟩ := Option.map_eq_some_iff.mp h
    rw [Option.orElse_eq_orElse, Option.orElse_eq_or, Option.or_eq_some_iff] at hk
    rcases hk with hk | ⟨-, hk⟩
    · exact List.mem_append.mpr (.inl (Lexicon.kind?_eq_some_iff.mp hk))
    · exact List.mem_append.mpr (.inr (Lexicon.kind?_eq_some_iff.mp hk))

-- Two characters are tried first, so that one is only taken where two are not registered.
theorem length_le_of_symbol? (h : symbol? s = some w) (ht : t <+: s) (hmem : t ∈ registered) :
    t.length ≤ w.text.length := by
  obtain ⟨kind, hkind⟩ := hmem
  have hpos := List.length_pos_iff.mpr (symbol?_text h).1
  rcases Vocabulary.length_of_mem_punctuation hkind with hlen | ⟨harrow, hop⟩
  · omega
  · have htake := List.prefix_iff_eq_take.mp ht
    rw [show t.length = 2 from congrArg List.length harrow] at htake
    rw [htake, ← Lexicon.kind?_eq_some_iff] at hop
    simp only [symbol?, hop, Option.some.injEq] at h
    rw [htake, ← h]

theorem longestPrefix_of_symbol? (h : symbol? s = some w) : LongestPrefix registered s w.text where
  ne_nil := (symbol?_text h).1
  isPrefix := (symbol?_text h).2
  mem := ⟨w.kind, mem_punctuation_of_symbol? h⟩
  length_le _ ht hmem := length_le_of_symbol? h ht hmem

theorem notMem_of_symbol?_eq_none (h : symbol? s = none) (ht : t <+: s) : t ∉ registered := by
  intro hmem
  obtain ⟨kind, hkind⟩ := hmem
  have htake := List.prefix_iff_eq_take.mp ht
  unfold symbol? at h
  split at h
  · cases h
  · next hnone =>
      rw [Option.map_eq_none_iff, Option.orElse_eq_orElse, Option.orElse_eq_or,
        Option.or_eq_none_iff] at h
      rcases Vocabulary.length_of_mem_punctuation hkind with hlen | ⟨harrow, hop⟩
      · rw [hlen] at htake
        rw [← htake, Lexicon.kind?_eq_none_iff, Lexicon.kind?_eq_none_iff] at h
        rcases List.mem_append.mp hkind with hk | hk
        · exact h.1 kind hk
        · exact h.2 kind hk
      · rw [show t.length = 2 from congrArg List.length harrow] at htake
        rw [← htake, Lexicon.kind?_eq_none_iff] at hnone
        exact hnone kind hop

theorem head_of_mem_words {c : Char} (h : c :: s ∈ words) : Alphabet.beginsWord c :=
  (Text.cons_mem_single_mul.mp ((Language.mem_sub _ _ _).mp h).1).1

theorem nil_notMem_words : [] ∉ words := by
  intro h
  exact Text.nil_notMem_single (Text.nil_mem_mul.mp ((Language.mem_sub _ _ _).mp h).1).1

theorem continuesWord_of_mem_words (h : s ∈ words) : ∀ c ∈ s, Alphabet.continuesWord c := by
  cases s with
  | nil => exact absurd h nil_notMem_words
  | cons d s =>
      obtain ⟨hd, hs⟩ := Text.cons_mem_single_mul.mp ((Language.mem_sub _ _ _).mp h).1
      intro c hc
      rcases List.mem_cons.mp hc with rfl | hc
      · simp [Alphabet.continuesWord, hd]
      · exact Text.mem_kstar_single.mp hs c hc

-- A word is the longest that the text begins with, unless the text begins with an arrow.
theorem longestPrefix_of_word? (h : word? s = some w) (harrow : ¬ arrow <+: s) :
    LongestPrefix words s w.text where
  ne_nil := (word?_text h).1
  isPrefix := (word?_text h).2
  mem := by
    refine (Language.mem_sub _ _ _).mpr ⟨?_, fun ha => harrow (ha.trans (word?_text h).2)⟩
    cases s with
    | nil => cases h
    | cons c s =>
        simp only [word?] at h
        split at h
        · next hc =>
            cases h
            refine Text.cons_mem_single_mul.mpr ⟨hc, Text.mem_kstar_single.mpr ?_⟩
            intro d hd
            exact List.mem_takeWhile_imp hd
        · cases h
  length_le t ht hmem := by
    cases s with
    | nil => cases h
    | cons c s =>
        simp only [word?] at h
        split at h
        · cases h
          rcases List.prefix_cons_iff.mp ht with rfl | ⟨t, rfl, ⟨rest, rfl⟩⟩
          · exact Nat.zero_le _
          · have hall := Text.mem_kstar_single.mp
              (Text.cons_mem_single_mul.mp ((Language.mem_sub _ _ _).mp hmem).1).2
            simp [List.takeWhile_append_of_pos hall]
        · cases h

theorem notMem_of_word?_eq_none (h : word? s = none) (ht : t <+: s) : t ∉ words := by
  intro hmem
  cases s with
  | nil =>
      rw [List.prefix_nil.mp ht] at hmem
      exact nil_notMem_words hmem
  | cons c s =>
      rcases List.prefix_cons_iff.mp ht with rfl | ⟨t, rfl, -⟩
      · exact nil_notMem_words hmem
      · simp [word?, head_of_mem_words hmem] at h

theorem kind_of_word? (h : word? s = some w) :
    (w.kind, w.text) ∈ Vocabulary.keywords.entries ∨
      (w.kind = .identifier ∧ ∀ kind, (kind, w.text) ∉ Vocabulary.keywords.entries) := by
  cases s with
  | nil => cases h
  | cons c s =>
      simp only [word?] at h
      split at h
      · cases h
        cases hk : Vocabulary.keywords.kind? (c :: s.takeWhile Alphabet.continuesWord) with
        | none => exact .inr ⟨rfl, Lexicon.kind?_eq_none_iff.mp hk⟩
        | some kind => exact .inl (Lexicon.kind?_eq_some_iff.mp hk)
      · cases h

end JustLang.Lexeme
