import JustLang.Text.Combining
import JustLang.Text.Unprintable

namespace JustLang.Text

-- The characters a form encloses its text in, if any, and what it escapes besides backslashes
-- and unprintable characters.
structure EscapeForm where
  enclosing : Text
  escapedQuotes : Text
  -- Combining characters after the first place; one in the first place is always escaped.
  laterCombining : Bool

-- A single character stands between apostrophes.
def characterForm : EscapeForm := ⟨['\''], ['\''], true⟩

-- A text stands between double quotes, and its combining characters are escaped throughout.
def quotedForm : EscapeForm := ⟨['"'], ['"'], true⟩

-- A text inside a sentence escapes both quotes, and shows a combining character that has a
-- character before it.
def inlineForm : EscapeForm := ⟨[], ['\'', '"'], false⟩

-- The code point in lower-case hexadecimal without padding.
def codePointEscape (c : Char) : Text :=
  ['\\', 'u', '\x7b'] ++ Nat.toDigits 16 c.toNat ++ ['\x7d']

def shortEscape? : Char → Option Char
  | '\x00' => some '0'
  | '\t' => some 't'
  | '\n' => some 'n'
  | '\r' => some 'r'
  | '\\' => some '\\'
  | _ => none

namespace EscapeForm

def escapeChar (form : EscapeForm) (escapeCombining : Bool) (c : Char) : Text :=
  match shortEscape? c with
  | some short => ['\\', short]
  | none =>
      if c ∈ form.escapedQuotes then ['\\', c]
      else if isUnprintable c || escapeCombining && isCombining c then codePointEscape c
      else [c]

def escape (form : EscapeForm) : Text → Text
  | [] => []
  | c :: s => form.escapeChar true c ++ s.flatMap (form.escapeChar form.laterCombining)

def apply (form : EscapeForm) (s : Text) : Text :=
  form.enclosing ++ form.escape s ++ form.enclosing

end EscapeForm

end JustLang.Text
