import JustLang.Text

namespace JustLang

-- Operators, delimiters and keywords have one spelling each. The tokens of any other kind are
-- spelled in many ways, and the end of the input in none.
inductive Kind where
  | endOfInput | unrecognized | identifier | integer | decimal | string
  | equal | rightArrow | dot
  | colon | comma | leftBrace | leftParen | leftBracket | newline
  | rightBrace | rightParen | rightBracket
  | interfaceKeyword | classKeyword | implementsKeyword | elseKeyword | falseKeyword | ifKeyword
  | letKeyword | newKeyword | privateKeyword | thisKeyword | trueKeyword
  deriving DecidableEq

namespace Kind

def all : List Kind :=
  [endOfInput, unrecognized, identifier, integer, decimal, string,
   equal, rightArrow, dot,
   colon, comma, leftBrace, leftParen, leftBracket, newline, rightBrace, rightParen, rightBracket,
   interfaceKeyword, classKeyword, implementsKeyword, elseKeyword, falseKeyword, ifKeyword,
   letKeyword, newKeyword, privateKeyword, thisKeyword, trueKeyword]

-- The name of the kind in listings and messages.
def name : Kind → String
  | endOfInput => "EndOfInput"
  | unrecognized => "Unrecognized"
  | identifier => "Identifier"
  | integer => "Integer"
  | decimal => "Decimal"
  | string => "String"
  | equal => "Equal"
  | rightArrow => "RightArrow"
  | dot => "Dot"
  | colon => "Colon"
  | comma => "Comma"
  | leftBrace => "LeftBrace"
  | leftParen => "LeftParen"
  | leftBracket => "LeftBracket"
  | newline => "Newline"
  | rightBrace => "RightBrace"
  | rightParen => "RightParen"
  | rightBracket => "RightBracket"
  | interfaceKeyword => "Interface"
  | classKeyword => "Class"
  | implementsKeyword => "Implements"
  | elseKeyword => "Else"
  | falseKeyword => "False"
  | ifKeyword => "If"
  | letKeyword => "Let"
  | newKeyword => "New"
  | privateKeyword => "Private"
  | thisKeyword => "This"
  | trueKeyword => "True"

def ofName? (name : String) : Option Kind := all.find? (·.name = name)

theorem ofName?_name (k : Kind) : ofName? k.name = some k := by
  cases k <;> decide

theorem name_injective {k l : Kind} (h : k.name = l.name) : k = l := by
  have hk := ofName?_name k
  rw [h, ofName?_name] at hk
  exact (Option.some.inj hk).symm

end Kind

end JustLang
