import Formula.CommandLine

/-!
# `Formula.Main` — the program

Reads the file that the arguments name, writes the answer and exits with its status.
-/

open Formula

/-- The bytes of a file, unless it cannot be read. -/
def readBytes? (path : String) : IO (Option ByteArray) := do
  try return some (← IO.FS.readBinFile path)
  catch _ => return none

/-- Answers the arguments. -/
def main (args : List String) : IO UInt32 := do
  let invocation := Invocation.ofArguments args
  let content ← match invocation.file? with
    | some path => readBytes? path
    | none => pure none
  let answer := invocation.answer content
  IO.print answer.output
  return answer.exitStatus.toUInt32
