import JustLang.CommandLine.Run

namespace JustLang.CommandLine

private def readFile (path : String) : IO (Except ReadError ByteArray) := do
  try
    return .ok (← IO.FS.readBinFile path)
  catch
    | .noFileOrDirectory .. => return .error .notFound
    -- A directory is opened like a file and cannot be read. A path through a file cannot even be
    -- opened, and only then does the error name it.
    | .inappropriateType (some _) .. => return .error .notDirectory
    | .inappropriateType none .. => return .error .isDirectory
    | e => return .error (.other (toString e))

def outcome (arguments : List String) : IO Outcome := do
  match Arguments.read arguments (← IO.getEnv "JUSTLEX_FILE") with
  | .error halt => return halt.outcome
  | .ok arguments => return arguments.run (← readFile arguments.file)

end JustLang.CommandLine

def main (arguments : List String) : IO UInt32 := do
  let outcome ← JustLang.CommandLine.outcome arguments
  (← IO.getStdout).putStr (String.ofList outcome.out)
  (← IO.getStderr).putStr (String.ofList outcome.err)
  return outcome.code.toUInt32
