import JustLang.Machine
import JustLang.Token

namespace JustLang.StringLiteral

-- A literal goes from a double quote to the next one on the same line that no backslash escapes. A
-- backslash escapes whatever single character follows it on the line.
inductive State where
  | start
  | body
  | escape
  | closed
  deriving DecidableEq

def step : State → Char → Option State
  | .start, c => if c = '"' then some .body else none
  | .body, c =>
      if c = '\n' then none
      else if c = '"' then some .closed
      else if c = '\\' then some .escape
      else some .body
  | .escape, c => if c = '\n' then none else some .body
  | .closed, _ => none

-- The literal is complete with the closing quote, and nothing after it is looked at.
def machine : Machine State where
  start := .start
  step := step
  accepting state := state = .closed
  final state := state = .closed

def match? (s : Text) : Option (Machine.Match State) := machine.match? s

def recognize (s : Text) : Machine.Recognition State := machine.recognize s

-- The literal that the text begins with, quotes included.
def read? (s : Text) : Option Lexeme := (match? s).map (⟨.string, ·.text⟩)

theorem read?_text {s : Text} {w : Lexeme} (h : read? s = some w) :
    w.text ≠ [] ∧ w.text <+: s := by
  obtain ⟨found, hf, rfl⟩ := Option.map_eq_some_iff.mp h
  exact ⟨Machine.matchFrom?_ne_nil hf, Machine.matchFrom?_isPrefix hf⟩

end JustLang.StringLiteral
