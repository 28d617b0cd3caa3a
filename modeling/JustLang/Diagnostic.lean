import JustLang.Position
import JustLang.Text.Escape

namespace JustLang

inductive Cause where
  | unrecognisedCharacter (c : Char)
  | unterminatedString
  -- The spelling stands for two kinds, or twice for one, in the table.
  | duplicateLiteral (table : String) (literal : Text)
  -- The kind has two spellings in the table.
  | duplicateKind (table : String) (kind : String)
  deriving DecidableEq

namespace Cause

def name : Cause → String
  | unrecognisedCharacter _ => "UnrecognisedCharacter"
  | unterminatedString => "UnterminatedString"
  | duplicateLiteral .. => "DuplicateLiteral"
  | duplicateKind .. => "DuplicateKind"

def detail : Cause → Text
  | unrecognisedCharacter c =>
      "unrecognised character ".toList ++ Text.characterForm.apply [c]
  | unterminatedString => "unterminated string literal".toList
  | duplicateLiteral table literal =>
      "duplicate literal ".toList ++ Text.quotedForm.apply literal ++ " in ".toList ++
        table.toList ++ " table".toList
  | duplicateKind table kind =>
      "duplicate kind ".toList ++ kind.toList ++ " in ".toList ++ table.toList ++
        " table".toList

-- Tabs and carriage returns look like the spaces that they are not.
def tip? : Cause → Option Text
  | unrecognisedCharacter c =>
      if c = '\t' then
        some "Tabs are not skipped between tokens, indent with spaces".toList
      else if c = '\r' then
        some "Carriage returns are not accepted, save the file with `\\n` line endings".toList
      else none
  | unterminatedString => some "Add a closing `\"` before the end of the line".toList
  | duplicateLiteral table literal =>
      some ("Literal `".toList ++ Text.inlineForm.apply literal ++
        "` is registered twice in the ".toList ++ table.toList ++ " table".toList)
  | duplicateKind table kind =>
      some ("Token kind `".toList ++ kind.toList ++ "` is registered twice in the ".toList ++
        table.toList ++ " table".toList)

end Cause

structure Diagnostic where
  cause : Cause
  position : Position
  deriving DecidableEq

def Diagnostic.message (d : Diagnostic) : Text :=
  d.cause.detail ++ " at line ".toList ++ Text.ofNat d.position.line ++
    " and column ".toList ++ Text.ofNat d.position.column

end JustLang
