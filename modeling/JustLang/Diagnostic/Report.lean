import JustLang.Diagnostic
import JustLang.SourceLine
import JustLang.Text.Blank

namespace JustLang.Diagnostic

def heading (d : Diagnostic) : Text :=
  let tip := match d.cause.tip? with
    | none => []
    | some tip => " (".toList ++ tip ++ [')']
  Text.asLine ("Error: ".toList ++ d.cause.name.toList ++ tip)

-- Readers count lines and columns from one.
def place (d : Diagnostic) : Text :=
  Text.asLine ("-> ".toList ++ d.position.file.toList ++ ':' :: Text.ofNat (d.position.line + 1) ++
    ':' :: Text.ofNat (d.position.column + 1))

-- The empty margin of the line with the given number, as wide as the number and a space.
def margin (number : Nat) : Text :=
  List.replicate ((Text.ofNat number).length + 1) ' ' ++ ['|']

-- The number of characters between the indentation and the offset, none if the offset lies within
-- the indentation. There is no answer if the offset lies inside a character behind it.
def caretIndent? (line : SourceLine) : Option Nat :=
  (line.text.slice? line.text.indentation (max line.offset line.text.indentation)).map List.length

def snippet (line : SourceLine) (caretIndent : Nat) : Text :=
  Text.asLine (margin line.number) ++
    Text.asLine (Text.ofNat line.number ++ " | ".toList ++ line.text.dropSpaces.trimEnd) ++
    Text.asLine (margin line.number ++ ' ' :: List.replicate caretIndent '-' ++ ['^'])

-- A place outside the source is described by the message alone. There is no report if the place
-- is inside a character of the shown line.
def report? (d : Diagnostic) (source : Text) : Option Text :=
  match SourceLine.at? source d.position.offset with
  | none => some (d.heading ++ d.place ++ d.message.asLine)
  | some line => (caretIndent? line).map fun indent => d.heading ++ d.place ++ snippet line indent

end JustLang.Diagnostic
