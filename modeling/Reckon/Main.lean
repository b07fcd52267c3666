import Reckon.CommandLine.Program

/-! The program itself: it reads what the request asks for, answers and ends with the answer's
status. -/

namespace Reckon.CommandLine

/-- The reasons for not reading a file, by their numbers. -/
def reasons : List (Nat × String) :=
  [(1, "Operation not permitted"), (2, "No such file or directory"), (5, "Input/output error"),
   (13, "Permission denied"), (20, "Not a directory"), (21, "Is a directory"),
   (22, "Invalid argument"), (24, "Too many open files"), (36, "File name too long"),
   (40, "Too many levels of symbolic links")]

/-- A reason with its number. The number may be given with a minus sign; one that is not listed goes
with the words given. -/
def numberedReason (code : UInt32) (details : String) : String :=
  let number := code.toInt32.toInt.natAbs
  (reasons.lookup number).getD details ++ " (os error " ++ toString number ++ ")"

def systemReason (e : IO.Error) : String :=
  match e with
  | .noFileOrDirectory _ code details => numberedReason code details
  | .permissionDenied _ code details => numberedReason code details
  | .inappropriateType _ code details => numberedReason code details
  | .invalidArgument _ code details => numberedReason code details
  | .resourceExhausted _ code details => numberedReason code details
  | .noSuchThing _ code details => numberedReason code details
  | .otherError code details => numberedReason code details
  | e => toString e

/-- The bytes a request works on. A request that carries its text needs none. -/
def readInput (input : Input) : IO (Except ReadError ByteArray) := do
  match input with
  | .text _ => return .ok .empty
  | .file path =>
    try return .ok (← IO.FS.readBinFile path)
    catch e => return .error (.system (systemReason e))
  | .standard =>
    try return .ok (← (← IO.getStdin).readBinToEnd)
    catch e => return .error (.system (systemReason e))

def run (args : List String) : IO UInt32 := do
  let read ← match Request.ofArguments args with
    | .ok request => readInput request.input
    | .error _ => pure (.ok .empty)
  let answer := answer args fun _ => read
  IO.print answer.output
  IO.eprint answer.errors
  return answer.status.toUInt32

end Reckon.CommandLine

/-- Answers the command line it was started with. -/
def main (args : List String) : IO UInt32 := Reckon.CommandLine.run args
