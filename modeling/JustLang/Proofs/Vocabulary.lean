import JustLang.Alphabet
import JustLang.Vocabulary

namespace JustLang

namespace Alphabet

-- Letters come after the digits.
theorem toNat_le_of_isAlpha {c : Char} (h : c.isAlpha) : 'A'.toNat ≤ c.toNat := by
  rcases Bool.or_eq_true_iff.mp h with h | h
  · have hc : 'A'.val ≤ c.val := (of_decide_eq_true h).1
    exact UInt32.le_iff_toNat_le.mp hc
  · have hc : 'a'.val ≤ c.val := of_decide_eq_true (Bool.and_eq_true_iff.mp h).1
    have hcase : 'A'.toNat ≤ 'a'.toNat := by decide
    exact Nat.le_trans hcase (UInt32.le_iff_toNat_le.mp hc)

theorem not_isDigit_of_beginsWord {c : Char} (h : beginsWord c) : ¬ c.isDigit := by
  simp only [beginsWord, beginsName, isSymbol, Bool.or_eq_true, decide_eq_true_eq] at h
  rcases h with ((h | h) | h) | h
  · intro hd
    have hletter := toNat_le_of_isAlpha h
    have hdigit := (Char.isDigit_iff_toNat.mp hd).2
    have hlast : '9'.toNat < 'A'.toNat := by decide
    omega
  · subst h
    decide
  · subst h
    decide
  · have hs : symbols.all (fun c => ¬ c.isDigit) := by decide
    simpa using List.all_eq_true.mp hs c (by simpa using h)

-- A numeral begins with a digit or a point, and a word with neither.
theorem not_isDigit_or_point_of_beginsWord {c : Char} (h : beginsWord c) :
    ¬ (c.isDigit ∨ c = '.') := by
  intro hc
  rcases hc with hc | hc
  · exact not_isDigit_of_beginsWord h hc
  · subst hc
    exact absurd h (by decide)

end Alphabet

namespace Vocabulary

def punctuation : List (Kind × Text) := operators.entries ++ delimiters.entries

def arrow : Text := ['-', '>']

theorem length_of_mem_punctuation {kind : Kind} {s : Text} (h : (kind, s) ∈ punctuation) :
    s.length = 1 ∨ (s = arrow ∧ (kind, s) ∈ operators.entries) := by
  have hall : ∀ e ∈ punctuation, e.2.length = 1 ∨ (e.2 = arrow ∧ e ∈ operators.entries) := by
    decide
  exact hall _ h

-- The arrow alone could also begin a word.
theorem eq_arrow_of_mem_punctuation {kind : Kind} {c : Char} {s : Text}
    (h : (kind, c :: s) ∈ punctuation) (hc : Alphabet.beginsWord c) : c :: s = arrow := by
  have hall : ∀ e ∈ punctuation, (e.2.head?.any Alphabet.beginsWord) → e.2 = arrow := by decide
  exact hall _ h (by simpa using hc)

theorem head?_ne_quote_of_mem_punctuation {kind : Kind} {s : Text} (h : (kind, s) ∈ punctuation) :
    s.head? ≠ some '"' := by
  have hall : ∀ e ∈ punctuation, e.2.head? ≠ some '"' := by decide
  exact hall _ h

theorem eq_newline_of_mem_punctuation {kind : Kind} {s : Text} (h : (kind, s) ∈ punctuation)
    (hm : kind = .newline ∨ '\n' ∈ s) : s = ['\n'] := by
  have hall : ∀ e ∈ punctuation, e.1 = .newline ∨ '\n' ∈ e.2 → e.2 = ['\n'] := by decide
  exact hall _ h hm

-- No entry stands for the end of the input or for what cannot be read.
theorem kind_ne_of_mem_punctuation {kind : Kind} {s : Text} (h : (kind, s) ∈ punctuation) :
    kind ≠ .endOfInput ∧ kind ≠ .unrecognized := by
  have hall : ∀ e ∈ punctuation, e.1 ≠ .endOfInput ∧ e.1 ≠ .unrecognized := by decide
  exact hall _ h

theorem kind_ne_of_mem_keywords {kind : Kind} {s : Text} (h : (kind, s) ∈ keywords.entries) :
    kind ≠ .newline ∧ kind ≠ .endOfInput ∧ kind ≠ .unrecognized := by
  have hall : ∀ e ∈ keywords.entries,
      e.1 ≠ .newline ∧ e.1 ≠ .endOfInput ∧ e.1 ≠ .unrecognized := by decide
  exact hall _ h

end Vocabulary

end JustLang
