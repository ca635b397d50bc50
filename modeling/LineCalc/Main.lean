import LineCalc.Command.Session

/-!
# Program

Connecting a session to the standard streams. A fault, which no input of a
length that fits into memory can cause, ends the program with status 101.
-/

namespace LineCalc

/-- Read at least the first line of a stream. -/
partial def readLine (stream : IO.FS.Stream) (soFar : ByteArray) : IO ByteArray := do
  let bytes ← stream.read 4096
  if bytes.isEmpty ∨ bytes.toList.contains 10 then
    return soFar ++ bytes
  else
    readLine stream (soFar ++ bytes)

end LineCalc

open LineCalc in
/-- Run the program. -/
def main (arguments : List String) : IO UInt32 := do
  let invocation := Invocation.ofArguments arguments
  let stdout ← IO.getStdout
  stdout.putStr (Session.preamble invocation)
  stdout.flush
  let input ←
    if invocation.needsLine then readLine (← IO.getStdin) ByteArray.empty
    else pure ByteArray.empty
  match Session.response invocation input.toList with
  | .ok t =>
    stdout.putStr t.stdout
    IO.eprint t.stderr
    return UInt32.ofNat t.status
  | .error fault =>
    IO.eprintln fault.message
    return 101
