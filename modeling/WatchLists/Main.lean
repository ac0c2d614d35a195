import WatchLists.Inspector.Run

/-!
# The command line

The inspector on a machine: its files, its log and its standard streams.
-/

namespace WatchLists

/-- The machine, with the handle of the log if the log goes to a file. -/
abbrev Machine := StateT (Option IO.FS.Handle) IO

/-- Whether an action ends without an error. -/
def succeeds (action : IO Unit) : IO Bool := do
  try
    action
    return true
  catch _ => return false

/-- Writes a text to a handle, and waits until it is written. -/
def putNow (h : IO.FS.Handle) (text : String) : IO Unit := do
  h.putStr text
  h.flush

/-- Writes a text to standard output, and waits until it is written. -/
def printNow (text : String) : IO Unit := do
  let out ← IO.getStdout
  out.putStr text
  out.flush

instance : Host Machine where
  readFile path := do
    try
      return some (← IO.FS.readBinFile path).toList
    catch _ => return none
  writeFile path text :=
    succeeds do putNow (← IO.FS.Handle.mk path .write) text
  openLog path := do
    try
      set (some (← IO.FS.Handle.mk path .write))
      return true
    catch _ =>
      set (none : Option IO.FS.Handle)
      return false
  writeLog line := do
    match ← get with
    | some h => succeeds (putNow h (line ++ "\n"))
    | none =>
      printNow (line ++ "\n")
      return true
  print text := do printNow text

end WatchLists

open WatchLists in
/-- Runs the inspector with the arguments of the command line. -/
def main (args : List String) : IO UInt32 := do
  let (exit, _) ← (Inspector.command args : Machine Inspector.Exit).run none
  IO.eprint exit.complaint
  return exit.code.toUInt32
