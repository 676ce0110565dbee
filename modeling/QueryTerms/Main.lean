import QueryTerms.Command.Run

/-! The command line: reads the file that the arguments name, prints what the run leaves behind and ends with
its code. -/

namespace QueryTerms

/-- Reads a file, with the reasons of failure that a run can report. -/
def readFile (path : String) : IO (Except FileError String) := do
  try
    let content ← IO.FS.readBinFile path
    match String.fromUTF8? content with
    | some text => return .ok text
    | none => return .error .invalidText
  catch e =>
    match e with
    | .noFileOrDirectory .. => return .error .notFound
    | .permissionDenied .. => return .error (.other "Permission denied (os error 13)")
    | .inappropriateType _ code _ =>
      return .error (if code = 20 ∨ code + 20 = 0 then .notDirectory else .isDirectory)
    | .invalidArgument _ code cause =>
      return .error (if code = 36 ∨ code + 36 = 0 then .nameTooLong else .other cause)
    | e => return .error (.other (toString e))

/-- The configuration file that a command names. -/
def configPath : Command → Option String
  | .table _ _ _ path _ => path
  | .backtrace _ => none

end QueryTerms

open QueryTerms in
def main (args : List String) : IO UInt32 := do
  let content ← match (Command.parse args).toOption.bind configPath with
    | some path => readFile path
    | none => pure (.error .notFound)
  let result := Exit.ofArguments (fun _ => content) args
  IO.print result.output.out
  IO.eprint result.output.err
  return result.code
