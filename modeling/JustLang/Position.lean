import JustLang.Text

namespace JustLang

-- Lines and columns are counted from zero, columns in characters and offsets in bytes.
structure Cursor where
  offset : Nat
  line : Nat
  column : Nat
  deriving DecidableEq

namespace Cursor

def start : Cursor := ⟨0, 0, 0⟩

-- Along the line. Whether the text has newlines in it is not asked.
def advance (cursor : Cursor) (s : Text) : Cursor :=
  ⟨cursor.offset + s.byteSize, cursor.line, cursor.column + s.length⟩

-- To the start of the next line, over the one byte of a newline.
def advanceLine (cursor : Cursor) : Cursor := ⟨cursor.offset + 1, cursor.line + 1, 0⟩

end Cursor

structure Position extends Cursor where
  file : String
  deriving DecidableEq

-- The place of an error that lies in no source.
def Position.nowhere : Position := ⟨Cursor.start, "<null>"⟩

end JustLang
