import JustLang.Text

namespace JustLang.CommandLine

inductive ReadError where
  | notFound
  | isDirectory
  | notDirectory
  | notText
  | other (reason : String)
  deriving DecidableEq

def ReadError.message : ReadError → Text
  | notFound => "No such file or directory (os error 2)".toList
  | isDirectory => "Is a directory (os error 21)".toList
  | notDirectory => "Not a directory (os error 20)".toList
  | notText => "stream did not contain valid UTF-8".toList
  | other reason => reason.toList

-- The names in a path, without those that stay in the directory they stand in.
def pathNames (path : String) : List String :=
  (path.splitOn "/").filter fun name => name ≠ "" && name ≠ "."

-- The last name in a path, unless it leads back.
def fileName? (path : String) : Option String :=
  match (pathNames path).getLast? with
  | some ".." => none
  | last? => last?

-- A source is text in UTF-8.
def decode (content : ByteArray) : Except ReadError Text :=
  match String.fromUTF8? content with
  | some s => .ok s.toList
  | none => .error .notText

-- The files below a directory, each with the names that lead to it.
abbrev Directory := List (List String × ByteArray)

def Directory.ofFiles (files : List (String × ByteArray)) : Directory :=
  files.map fun file => (pathNames file.1, file.2)

-- What is below the given name.
def Directory.below (directory : Directory) (name : String) : Directory :=
  directory.filterMap fun
    | ([], _) => none
    | (first :: names, content) => if first = name then some (names, content) else none

inductive Place where
  | file (content : ByteArray)
  -- The directory and those around it. There are none outside the working directory, where no
  -- files are known.
  | directory (enclosing : List Directory)

def Place.enter (place : Place) (name : String) : Except ReadError Place :=
  match place with
  | .file _ => .error .notDirectory
  | .directory enclosing =>
      if name = "" || name = "." then .ok place
      else if name = ".." then .ok (.directory enclosing.tail)
      else match enclosing with
        | [] => .error .notFound
        | here :: _ =>
            match here.below name with
            | [] => .error .notFound
            | ([], content) :: _ => .ok (.file content)
            | inner => .ok (.directory (inner :: enclosing))

def Directory.read (directory : Directory) (path : String) : Except ReadError ByteArray := do
  let start := if path.startsWith "/" then [] else [directory]
  match ← (path.splitOn "/").foldlM Place.enter (.directory start) with
  | .file content => .ok content
  | .directory _ => .error .isDirectory

end JustLang.CommandLine
