import JustLang.Numeral
import JustLang.StringLiteral
import JustLang.Vocabulary

namespace JustLang.Lexeme

-- The numeral that the text begins with, looked for only where two characters announce one.
def numeral? (s : Text) : Option Lexeme :=
  if Numeral.canBegin s[0]? s[1]? then Numeral.read? s else none

-- The operator or delimiter that the text begins with, an operator of two characters first.
def symbol? (s : Text) : Option Lexeme :=
  match Vocabulary.operators.kind? (s.take 2) with
  | some kind => some ⟨kind, s.take 2⟩
  | none =>
      (Vocabulary.operators.kind? (s.take 1) <|> Vocabulary.delimiters.kind? (s.take 1)).map
        (⟨·, s.take 1⟩)

-- The longest word that the text begins with, which is an identifier unless it is a keyword.
def word? : Text → Option Lexeme
  | [] => none
  | c :: s =>
      if Alphabet.beginsWord c then
        let word := c :: s.takeWhile Alphabet.continuesWord
        some ⟨(Vocabulary.keywords.kind? word).getD .identifier, word⟩
      else none

theorem numeral?_text {s : Text} {w : Lexeme} (h : numeral? s = some w) :
    w.text ≠ [] ∧ w.text <+: s :=
  Numeral.read?_text (Option.ite_none_right_eq_some.mp h).2

theorem symbol?_text {s : Text} {w : Lexeme} (h : symbol? s = some w) :
    w.text ≠ [] ∧ w.text <+: s := by
  have hempty : Vocabulary.operators.kind? [] = none := by decide
  have hempty' : Vocabulary.delimiters.kind? [] = none := by decide
  unfold symbol? at h
  split at h
  · next kind hk =>
      cases h
      refine ⟨?_, List.take_prefix 2 s⟩
      intro hs
      replace hs : s.take 2 = [] := hs
      rw [hs, hempty] at hk
      cases hk
  · obtain ⟨kind, hk, rfl⟩ := Option.map_eq_some_iff.mp h
    refine ⟨?_, List.take_prefix 1 s⟩
    intro hs
    replace hs : s.take 1 = [] := hs
    rw [hs, hempty, hempty'] at hk
    cases hk

theorem word?_text {s : Text} {w : Lexeme} (h : word? s = some w) :
    w.text ≠ [] ∧ w.text <+: s := by
  cases s with
  | nil => cases h
  | cons c s =>
      simp only [word?] at h
      split at h
      · cases h
        exact ⟨List.cons_ne_nil _ _,
          List.cons_prefix_cons.mpr ⟨rfl, List.takeWhile_prefix _⟩⟩
      · cases h

end JustLang.Lexeme
