import PartitionPruning.Command.Run

/-! The program on a command line. -/

namespace PartitionPruning

def readFileText (path : String) : IO (Except ReadFault String) := do
  try
    pure (.ok (← IO.FS.readFile path))
  catch
    | .noFileOrDirectory .. => pure (.error .notFound)
    | e => pure (.error (.reported (toString e)))

/-- Reads all of the standard input, unless it is a terminal. -/
def readStandardInput : IO (Option String) := do
  let stdin ← IO.getStdin
  if ← stdin.isTty then pure none
  else pure (some (← IO.FS.Stream.readToEnd stdin))

end PartitionPruning

def main (args : List String) : IO UInt32 := do
  let outcome ← PartitionPruning.run
    ⟨PartitionPruning.readFileText, PartitionPruning.readStandardInput⟩ args
  IO.print outcome.stdout
  IO.eprint outcome.stderr
  pure outcome.exitCode.toUInt32
