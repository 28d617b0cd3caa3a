import JustLang.Lexicon

namespace JustLang

namespace Vocabulary

def operators : Lexicon where
  name := "operator"
  entries := [(.equal, "=".toList), (.rightArrow, "->".toList), (.dot, ".".toList)]
  kinds_nodup := by decide
  spellings_nodup := by decide

-- A newline separates statements, and so is a delimiter like the others.
def delimiters : Lexicon where
  name := "delimiter"
  entries :=
    [(.colon, [':']), (.comma, [',']), (.leftBrace, ['\x7b']), (.leftParen, ['(']),
     (.leftBracket, ['[']), (.newline, ['\n']), (.rightBrace, ['\x7d']), (.rightParen, [')']),
     (.rightBracket, [']'])]
  kinds_nodup := by decide
  spellings_nodup := by decide

def keywords : Lexicon where
  name := "keyword"
  entries :=
    [(.interfaceKeyword, "interface".toList), (.classKeyword, "class".toList),
     (.implementsKeyword, "implements".toList), (.elseKeyword, "else".toList),
     (.falseKeyword, "false".toList), (.ifKeyword, "if".toList), (.letKeyword, "let".toList),
     (.newKeyword, "new".toList), (.privateKeyword, "private".toList),
     (.thisKeyword, "this".toList), (.trueKeyword, "true".toList)]
  kinds_nodup := by decide
  spellings_nodup := by decide

def all : List Lexicon := [operators, delimiters, keywords]

end Vocabulary

namespace Kind

def isKeyword (kind : Kind) : Bool := (Vocabulary.keywords.spelling? kind).isSome

-- The only spelling of a kind that has one.
def spelling? (kind : Kind) : Option Text :=
  Vocabulary.all.findSome? (·.spelling? kind)

-- A short tag: the spelling, or else the word for what the tokens of the kind are.
def tag (kind : Kind) : Text :=
  match kind with
  | .identifier => "identifier".toList
  | .integer => "integer".toList
  | .decimal => "decimal".toList
  | .string => "string".toList
  | kind => kind.spelling?.getD kind.name.toList

end Kind

end JustLang
