import JustLang.Text

namespace JustLang

structure SourceLine where
  -- Counted from one.
  number : Nat
  -- With the newline that ends the line, if one does.
  text : Text
  -- The byte offset within the line.
  offset : Nat
  deriving DecidableEq

namespace SourceLine

-- The line that holds the byte at an offset, where the first of the lines has the given number. A
-- newline lies on the line that it ends.
def find? (number offset : Nat) : List Text → Option SourceLine
  | [] => none
  | line :: rest =>
      if offset < line.byteSize then some ⟨number, line, offset⟩
      else find? (number + 1) (offset - line.byteSize) rest

-- The place behind the last byte is on no line if the source ends with a newline, and counts as on
-- an empty one below it.
def atEnd? (source : Text) (offset : Nat) : Option SourceLine :=
  if offset = source.byteSize then
    some ⟨source.count '\n' + 1, source.lastLine, offset - source.beforeLastLine.byteSize⟩
  else none

def at? (source : Text) (offset : Nat) : Option SourceLine :=
  (find? 1 offset source.lines).or (atEnd? source offset)

end SourceLine

end JustLang
