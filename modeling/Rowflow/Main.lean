import Rowflow.Command

/-!
# Program

Reads the file that the first argument names and runs the command.
-/

namespace Rowflow

/-- The bytes of a file, or why there are none. -/
def readBytes (path : String) : IO (Except ReadFailure ByteArray) := do
  try
    return .ok (← IO.FS.readBinFile path)
  catch e =>
    match e with
    | .noFileOrDirectory .. => return .error .notFound
    | e => return .error (.other (toString e))

end Rowflow

open Rowflow in
/-- The entry point of the program. -/
def main (arguments : List String) : IO UInt32 := do
  let bytes ←
    match arguments with
    | [] => pure (.error .notFound)
    | file :: _ => readBytes file
  let outcome := Command.run "rowflow" arguments bytes
  outcome.output.forM IO.println
  outcome.complaints.forM IO.eprintln
  return outcome.code
