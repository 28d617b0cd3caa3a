import JustLang.Text

namespace JustLang.Alphabet

def symbols : Text := "<>+-*&^!@#$|%".toList

def isSymbol (c : Char) : Bool := symbols.contains c

-- The characters that can begin a plain name. The dollar sign is also a symbol.
def beginsName (c : Char) : Bool := c.isAlpha || c = '_' || c = '$'

-- A word may be spelled like a name in most languages, or with the punctuation that stands for an
-- operation, or with any mixture of the two. Letters and digits are the ASCII ones.
def beginsWord (c : Char) : Bool := beginsName c || isSymbol c

-- A digit can stand anywhere in a word but in the first place.
def continuesWord (c : Char) : Bool := beginsWord c || c.isDigit

end JustLang.Alphabet
