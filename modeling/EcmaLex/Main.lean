import EcmaLex.CommandLine

/-!
# The program

Reads the file that the arguments name, and prints what the command line says.
-/

namespace EcmaLex

/-- The code by which the system says that what was to be read is a folder. -/
def isDirectoryCode : UInt32 := 21

/-- The code by which the system says that a name is too long. -/
def nameTooLongCode : UInt32 := 0 - 36

/-- The text that reading a file gives. -/
def readText (path : String) : IO (Except ReadError String) := do
  try
    return fileText (← IO.FS.readBinFile path)
  catch
    | .noFileOrDirectory .. => return .error .notFound
    | .permissionDenied .. => return .error .permissionDenied
    | .inappropriateType _ code _ =>
      return .error (if code == isDirectoryCode then .isFolder else .notFolder)
    | .invalidArgument _ code reason =>
      return .error (if code == nameTooLongCode then .nameTooLong else .other reason)
    | e => return .error (.other (toString e))

end EcmaLex

open EcmaLex in
/-- Runs the command that the arguments give. -/
def main (args : List String) : IO UInt32 := do
  let command := Command.ofArgs args
  let content ←
    match command with
    | .list path _ => readText path
    | _ => pure (.error .notFound)
  let outcome := command.run fun _ => content
  IO.print outcome.output
  IO.eprint outcome.errors
  return outcome.status.toUInt32
