import JustLang.Text

namespace JustLang.CommandLine

inductive Misuse where
  | unknownOption (name : Text)
  | repeatedOption (name : Text)
  -- No option takes a value.
  | unexpectedValue (name : Text)
  | secondFile (name : String)
  | emptyFile
  deriving DecidableEq

-- What ends the reading of the arguments before there is a file to read.
inductive Halt where
  | help
  | version
  | misuse (reason : Misuse)
  deriving DecidableEq

inductive Flag where
  | recover
  | verbose
  | version
  | help
  deriving DecidableEq

namespace Flag

def name : Flag → Text
  | recover => "recover".toList
  | verbose => "verbose".toList
  | version => "version".toList
  | help => "help".toList

def short? : Flag → Option Char
  | recover => none
  | verbose => some 'v'
  | version => some 'V'
  | help => some 'h'

def all : List Flag := [recover, verbose, version, help]

def ofName? (name : Text) : Option Flag := all.find? (·.name = name)

def ofShort? (c : Char) : Option Flag := all.find? (·.short? = some c)

end Flag

structure Arguments where
  file? : Option String
  recover : Bool
  verbose : Bool
  deriving DecidableEq

namespace Arguments

def empty : Arguments := ⟨none, false, false⟩

def setFlag (arguments : Arguments) (flag : Flag) : Except Halt Arguments :=
  match flag with
  | .help => .error .help
  | .version => .error .version
  | .recover =>
      if arguments.recover then .error (.misuse (.repeatedOption flag.name))
      else .ok { arguments with recover := true }
  | .verbose =>
      if arguments.verbose then .error (.misuse (.repeatedOption flag.name))
      else .ok { arguments with verbose := true }

def setFile (arguments : Arguments) (file : String) : Except Halt Arguments :=
  if arguments.file?.isSome then .error (.misuse (.secondFile file))
  else if file = "" then .error (.misuse .emptyFile)
  else .ok { arguments with file? := some file }

-- An option written out after two hyphens.
def setLong (arguments : Arguments) (option : Text) : Except Halt Arguments :=
  let name := option.takeWhile (· ≠ '=')
  match Flag.ofName? name with
  | none => .error (.misuse (.unknownOption name))
  | some flag =>
      if '=' ∈ option then .error (.misuse (.unexpectedValue name)) else arguments.setFlag flag

-- One of the letters after a single hyphen.
def setShort (arguments : Arguments) (c : Char) : Except Halt Arguments :=
  match Flag.ofShort? c with
  | none => .error (.misuse (.unknownOption [c]))
  | some flag => arguments.setFlag flag

-- Each argument is acted on when it is read, so a flag that ends the reading hides whatever is
-- wrong behind it.
-- After two hyphens alone, whatever follows is a file. So is a single hyphen.
def readFrom (arguments : Arguments) : List String → Except Halt Arguments
  | [] => .ok arguments
  | argument :: rest =>
      match argument.toList with
      | ['-', '-'] => rest.foldlM setFile arguments
      | '-' :: '-' :: option => do (← arguments.setLong option).readFrom rest
      | '-' :: c :: letters => do
          (← (c :: letters).foldlM setShort arguments).readFrom rest
      | _ => do (← arguments.setFile argument).readFrom rest

-- The value of the environment stands in for a file that is not named by the arguments.
def read (arguments : List String) (environment? : Option String) : Except Halt Arguments := do
  let arguments ← empty.readFrom arguments
  match arguments.file?, environment? with
  | none, some file => arguments.setFile file
  | _, _ => .ok arguments

def file (arguments : Arguments) : String := arguments.file?.getD "demos/generic.just"

end Arguments

end JustLang.CommandLine
