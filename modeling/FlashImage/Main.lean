import FlashImage.CommandLine

/-!
# The program

The command line on the files of the machine. What a run prints goes to standard output, and what it
logs to standard error.
-/

namespace FlashImage

/-- Whether an action succeeds. -/
def succeeds (action : IO Unit) : IO Bool := do
  try
    action
    return true
  catch _ => return false

/-- **The files of the machine.** -/
instance : FileSystem IO where
  readFile path := do
    try
      return some (← IO.FS.readBinFile path).data.toList
    catch _ => return none
  writeFile path contents := succeeds (IO.FS.writeBinFile path ⟨contents.toArray⟩)
  makeDirectories path := succeeds (IO.FS.createDirAll path)

end FlashImage

/-- Run the tool on the arguments it is given. -/
def main (args : List String) : IO UInt32 := do
  let outcome ← FlashImage.CommandLine.run (m := IO) args
  IO.print outcome.out
  for line in outcome.log do
    IO.eprintln line.text
  return outcome.exitCode
