import JustLang.Proofs.Code
import JustLang.Proofs.Lexeme.Newline

namespace JustLang

open Computability
open Text (single IsCode)
open Vocabulary (punctuation)

-- The characters that can be read outside of string literals.
def Alphabet.isPlain (c : Char) : Bool :=
  c = ' ' || c = '\n' || c.isDigit || beginsWord c || "=.:,\x7b\x7d()[]".toList.contains c

namespace Text

def pieces : Language Char := single Alphabet.isPlain + StringLiteral.literals

def readable : Language Char := pieces∗

variable {c : Char} {s t : Text}

theorem isCode_pieces : IsCode pieces where
  nil_notMem := by
    rintro (h | h)
    · exact nil_notMem_single h
    · exact StringLiteral.nil_notMem_literals h
  eq_of_isPrefix := by
    rintro u (⟨c, hc, rfl⟩ | hu) v (⟨d, hd, rfl⟩ | hv) huv
    · exact huv.eq_of_length rfl
    · -- a literal begins with a quote, which is no plain character
      obtain ⟨rest, rfl⟩ := huv
      obtain rfl := StringLiteral.head_of_mem_literals hv
      exact absurd hc (by decide)
    · cases u with
      | nil => exact absurd hu StringLiteral.nil_notMem_literals
      | cons c u =>
          obtain rfl := StringLiteral.head_of_mem_literals hu
          obtain ⟨rfl, -⟩ := List.cons_prefix_cons.mp huv
          exact absurd hd (by decide)
    · exact StringLiteral.eq_of_isPrefix hu hv huv

theorem mem_readable_of_plain (h : ∀ c ∈ s, Alphabet.isPlain c) : s ∈ readable :=
  kstar_mono (a := single Alphabet.isPlain) (b := pieces) le_sup_left (mem_kstar_single.mpr h)

theorem mem_readable_of_mem_literals (h : s ∈ StringLiteral.literals) : s ∈ readable :=
  le_kstar (a := pieces) (Or.inr h)

theorem mem_readable_of_spaces (h : ∀ c ∈ s, c = ' ') : s ∈ readable := by
  refine mem_readable_of_plain fun c hc => ?_
  rw [h c hc]
  decide

end Text

namespace Numeral

-- Every character that some state reads is plain.
theorem step_eq_none_of_not_isPlain {c : Char} (h : ¬ Alphabet.isPlain c) (state : State) :
    step state c = none := by
  have hdigit : c.isDigit = false := by
    by_contra hd
    simp [Alphabet.isPlain, hd] at h
  have hpoint : c ≠ '.' := by
    rintro rfl
    exact h (by decide)
  have hmarker : isMarker c = false := by
    by_contra hm
    simp only [isMarker, Bool.not_eq_false, Bool.or_eq_true, decide_eq_true_eq] at hm
    rcases hm with rfl | rfl <;> exact h (by decide)
  have hsign : isSign c = false := by
    by_contra hs
    simp only [isSign, Bool.not_eq_false, Bool.or_eq_true, decide_eq_true_eq] at hs
    rcases hs with rfl | rfl <;> exact h (by decide)
  cases state <;> simp [step, hdigit, hpoint, hmarker, hsign]

theorem isPlain_of_mem_numerals {s : Text} (h : s ∈ numerals) : ∀ c ∈ s, Alphabet.isPlain c := by
  intro c hc
  by_contra hplain
  exact notMem_of_mem_numerals (step_eq_none_of_not_isPlain hplain) h hc

end Numeral

namespace Lexeme

open Text (pieces readable)

variable {c : Char} {s t : Text} {kind : Kind}

theorem isPlain_of_continuesWord (h : Alphabet.continuesWord c) : Alphabet.isPlain c := by
  simp only [Alphabet.continuesWord, Bool.or_eq_true] at h
  simp only [Alphabet.isPlain, Bool.or_eq_true]
  tauto

theorem isPlain_of_mem_words (h : s ∈ words) : ∀ c ∈ s, Alphabet.isPlain c := by
  intro c hc
  exact isPlain_of_continuesWord (continuesWord_of_mem_words h c hc)

theorem isPlain_of_mem_punctuation (h : (kind, s) ∈ punctuation) :
    ∀ c ∈ s, Alphabet.isPlain c := by
  have hall : ∀ e ∈ punctuation, e.2.all Alphabet.isPlain := by decide
  exact List.all_eq_true.mp (hall _ h)

-- Each lexeme is a string literal or made of plain characters.
theorem HasKind.mem_readable (h : HasKind s kind) : s ∈ readable := by
  cases h with
  | integer hs =>
      exact Text.mem_readable_of_plain (Numeral.isPlain_of_mem_numerals (.inl (.inl hs)))
  | decimal hs _ => exact Text.mem_readable_of_plain (Numeral.isPlain_of_mem_numerals hs)
  | string hs => exact Text.mem_readable_of_mem_literals hs
  | registered hs => exact Text.mem_readable_of_plain (isPlain_of_mem_punctuation hs)
  | keyword hs _ => exact Text.mem_readable_of_plain (isPlain_of_mem_words hs)
  | identifier hs _ => exact Text.mem_readable_of_plain (isPlain_of_mem_words hs)

-- A plain character is a lexeme of its own, unless it is a space.
theorem singleton_mem_lexemes (h : Alphabet.isPlain c) (hc : c ≠ ' ') : [c] ∈ lexemes := by
  simp only [Alphabet.isPlain, hc, decide_false, Bool.false_or, Bool.or_eq_true,
    decide_eq_true_eq] at h
  rcases h with ((hnewline | hdigit) | hword) | hmark
  · subst hnewline
    exact hasKind_newline.mem_lexemes
  · have hmem : [c] ∈ Numeral.digits := by
      simp [Numeral.digits, Numeral.digit, hdigit, Language.nil_mem_kstar]
    exact (HasKind.integer hmem).mem_lexemes
  · refine .inr ((Language.mem_sub _ _ _).mpr ⟨?_, fun harrow => ?_⟩)
    · exact Text.cons_mem_single_mul.mpr ⟨hword, Language.nil_mem_kstar _⟩
    · have hle : Vocabulary.arrow.length ≤ 1 := harrow.length_le
      exact absurd hle (by decide)
  · have hall : "=.:,\x7b\x7d()[]".toList.all fun c => punctuation.any (·.2 = [c]) := by decide
    have hc := List.all_eq_true.mp hall c (by simpa using hmark)
    obtain ⟨⟨kind, s⟩, he, hs⟩ := List.any_eq_true.mp hc
    obtain rfl : s = [c] := by simpa using hs
    exact .inl (.inr ⟨kind, he⟩)

theorem mem_lexemes_of_mem_pieces (h : c :: s ∈ pieces) (hc : c ≠ ' ') : c :: s ∈ lexemes := by
  rcases h with h | h
  · obtain ⟨hplain, rfl⟩ := Text.cons_mem_single.mp h
    exact singleton_mem_lexemes hplain hc
  · exact .inl (.inl (.inr h))

end Lexeme

end JustLang
