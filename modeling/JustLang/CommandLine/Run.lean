import JustLang.CommandLine.Arguments
import JustLang.CommandLine.Files
import JustLang.Diagnostic.Report
import JustLang.Lexer

namespace JustLang.CommandLine

structure Outcome where
  code : Nat
  out : Text
  err : Text
  deriving DecidableEq

-- One token a line.
def listing (tokens : List Token) : Text := tokens.flatMap fun t => t.display.asLine

-- Every diagnostic that a scan of the source makes has a report.
def reports (source : Text) (errors : List Diagnostic) : Text :=
  errors.flatMap fun d => (d.report? source).getD []

-- A strict run lists nothing if there is a fault. A recovering run lists all tokens, and fails if
-- there was one.
def listTokens (source : Text) (name? : Option String) (recovering : Bool) : Outcome :=
  if recovering then
    let result := source.recover name?
    ⟨if result.errors.isEmpty then 0 else 1, listing result.tokens, reports source result.errors⟩
  else
    match source.tokens name? with
    | .ok tokens => ⟨0, listing tokens, []⟩
    | .error d => ⟨1, [], reports source [d]⟩

-- Diagnostics name the file without the directories it is in.
def Arguments.run (arguments : Arguments) (content : Except ReadError ByteArray) : Outcome :=
  match content.bind decode with
  | .ok source => listTokens source (fileName? arguments.file) arguments.recover
  | .error e =>
      ⟨2, [],
        "error: failed to read ".toList ++ arguments.file.toList ++ ": ".toList ++ e.message ++
          ['\n']⟩

def synopsis : Text := "Usage: justlex [OPTIONS] [FILE]\n".toList

def Misuse.message : Misuse → Text
  | unknownOption name => "unknown option ".toList ++ name
  | repeatedOption name => "option given twice: ".toList ++ name
  | unexpectedValue name => "option takes no value: ".toList ++ name
  | secondFile name => "more than one file: ".toList ++ name.toList
  | emptyFile => "the name of the file is empty".toList

def Halt.outcome : Halt → Outcome
  | help => ⟨0, "Tokenize a Just source file\n\n".toList ++ synopsis, []⟩
  | version => ⟨0, "justlex 0.1.0\n".toList, []⟩
  | misuse reason => ⟨2, [], "error: ".toList ++ reason.message ++ "\n\n".toList ++ synopsis⟩

end JustLang.CommandLine
