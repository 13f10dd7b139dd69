import Sift.Command
import Sift.Standard

/-!
# The program

Filters the lines of its input. It shows the answer on the standard output, or says on the
standard error why there is none.
-/

namespace Sift

/-- All bytes of a stream. -/
partial def readAll (stream : IO.FS.Stream) (before : ByteArray) : IO ByteArray := do
  let bytes ← stream.read 65536
  if bytes.isEmpty then return before
  readAll stream (before ++ bytes)

/-- The request, with the standard input as its text if it needs one and is not typed by hand. -/
def withInput (q : FilterRequest) : IO FilterRequest := do
  let stdin ← IO.getStdin
  if q.needsInput && !(← stdin.isTty) then
    match String.fromUTF8? (← readAll stdin .empty) with
    | some text => return { q with input := some text }
    | none => throw (IO.userError "stream did not contain valid UTF-8")
  return q

/-- Says what is wrong, and gives the exit code. -/
def complain (message : String) (code : UInt32) : IO UInt32 := do
  IO.eprintln message
  return code

end Sift

/-- The program, with its arguments. -/
def main (args : List String) : IO UInt32 := do
  match Sift.Command.ofArguments args with
  | .error e => Sift.complain e.message 2
  | .ok q =>
    try
      match (← Sift.withInput q).answer .standard with
      | .error e => Sift.complain e.message 1
      | .ok answer =>
        IO.print answer.output
        return 0
    catch e => Sift.complain s!"IO error: {e}" 1
