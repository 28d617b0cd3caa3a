import JustLang.Machine
import JustLang.Token

namespace JustLang.Numeral

-- Digits, or digits on either side of a point with at least one after it, and an exponent that may
-- have a sign. An exponent or a point that is not completed is no part of the numeral.
inductive State where
  | start
  | integer
  -- After a point, before the digit that it needs.
  | point
  | decimal
  -- After the letter of an exponent, and after its sign.
  | marker
  | sign
  | exponent
  deriving DecidableEq

def isMarker (c : Char) : Bool := c = 'e' || c = 'E'

def isSign (c : Char) : Bool := c = '+' || c = '-'

def step : State → Char → Option State
  | .start, c => if c.isDigit then some .integer else if c = '.' then some .point else none
  | .integer, c =>
      if c.isDigit then some .integer
      else if c = '.' then some .point
      else if isMarker c then some .marker
      else none
  | .point, c => if c.isDigit then some .decimal else none
  | .decimal, c =>
      if c.isDigit then some .decimal else if isMarker c then some .marker else none
  | .marker, c =>
      if isSign c then some .sign else if c.isDigit then some .exponent else none
  | .sign, c => if c.isDigit then some .exponent else none
  | .exponent, c => if c.isDigit then some .exponent else none

-- The kind of the numeral that ends in the state, if one does.
def State.kind? : State → Option Kind
  | .integer => some .integer
  | .decimal | .exponent => some .decimal
  | .start | .point | .marker | .sign => none

def machine : Machine State where
  start := .start
  step := step
  accepting state := state.kind?.isSome
  -- More digits may follow any numeral.
  final _ := false

def match? (s : Text) : Option (Machine.Match State) := machine.match? s

def recognize (s : Text) : Machine.Recognition State := machine.recognize s

-- Whether the next two characters, of which there may be fewer, are a digit, or a point and a
-- digit.
def canBegin (first second : Option Char) : Bool :=
  first.any Char.isDigit || (first = some '.' && second.any Char.isDigit)

-- The longest numeral that the text begins with.
def read? (s : Text) : Option Lexeme :=
  match match? s with
  | none => none
  | some found => found.state.kind?.map (⟨·, found.text⟩)

theorem read?_text {s : Text} {w : Lexeme} (h : read? s = some w) :
    w.text ≠ [] ∧ w.text <+: s := by
  unfold read? at h
  split at h
  · cases h
  · next found hf =>
      obtain ⟨kind, _, rfl⟩ := Option.map_eq_some_iff.mp h
      exact ⟨Machine.matchFrom?_ne_nil hf, Machine.matchFrom?_isPrefix hf⟩

end JustLang.Numeral
