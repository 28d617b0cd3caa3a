import JustLang.Alphabet
import JustLang.Token.Kind

namespace JustLang

structure Lexeme where
  kind : Kind
  text : Text
  deriving DecidableEq

structure Token extends Lexeme where
  line : Nat
  column : Nat
  deriving DecidableEq

namespace Token

-- The end of the input is a token without text.
def endOfInput (line column : Nat) : Token := ⟨⟨.endOfInput, []⟩, line, column⟩

def isOneOf (t : Token) (kinds : List Kind) : Bool := kinds.contains t.kind

-- Identifiers spelled with symbols alone, such as `+` or `||`, name operations.
def isSymbolic (t : Token) : Bool := t.kind = .identifier && t.text.all Alphabet.isSymbol

-- The kinds whose text is not known from the kind, the end of the input apart.
def shownKinds : List Kind := [.string, .identifier, .integer, .decimal, .unrecognized]

-- One entry of a listing: place, kind, and the text where the kind does not give it.
def display (t : Token) : Text :=
  Text.ofNat t.line ++ ':' :: Text.ofNat t.column ++ '\t' :: t.kind.name.toList ++
    if t.isOneOf shownKinds then " (".toList ++ t.text ++ [')'] else []

end Token

end JustLang
