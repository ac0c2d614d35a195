import WatchLists.Inspector.Options
import WatchLists.Order.BinaryFirst
import WatchLists.WatchList.File
import WatchLists.WatchList.Removal

/-!
# A run of the inspector

The inspector reads a watch file, sweeps it, sorts it and checks it as it is
asked to, and writes the result. It tells its progress in comment lines, so that
they may stand in the same stream as the result. A run that is refused stops
before the result is written.

- `inspect` — a run with given options.
- `command` — a run with given arguments, to its exit code.
-/

namespace WatchLists.Inspector

variable {m : Type → Type} [Monad m] [Host m]

/-! ## Progress -/

/-- Tells a list that was read, by its length and kinds. -/
def readMessage (ws : WatchList) : String :=
  "# read " ++ Numeral.decimal ws.length ++ " watches: "
    ++ Numeral.decimal (ws.countKind .clause) ++ " clause, "
    ++ Numeral.decimal (ws.countKind .binary) ++ " binary, "
    ++ Numeral.decimal (ws.countKind .bnn) ++ " bnn, "
    ++ Numeral.decimal (ws.countKind .idx) ++ " idx"

/-- Tells a sweep. -/
def sweptMessage (n : Nat) : String :=
  "# swept " ++ Numeral.decimal n ++ " marked binary watches"

/-- Tells that a list has no order. -/
def unorderedMessage : String := "# idx watches have no binary-first order"

/-- Tells where the result is. -/
def savedMessage (path : String) : String := "# saved to " ++ path

/-- Tells progress, unless the run is quiet. -/
def report (o : Options) (message : String) : ExceptT Stop m Unit := do
  unless o.quiet do
    unless ← (Host.writeLog message : m Bool) do
      throw (.refused .inaccessible o.log?)

/-! ## The run -/

/-- Removes the marked binary watches, if that is asked for. -/
def sweepIfAsked (o : Options) (ws : WatchList) : ExceptT Stop m WatchList := do
  if o.sweep then
    report o (sweptMessage ws.sweep.2)
    return ws.sweep.1
  return ws

/-- Sorts and checks a list as asked for. A list with an idx watch can be
neither sorted nor checked. -/
def orderIfAsked (o : Options) (ws : WatchList) : ExceptT Stop m WatchList := do
  if (o.sort || o.check) && ws.any fun w => w.isKind .idx then
    report o unorderedMessage
    throw (.refused .unsorted (some o.input))
  let ws ← if o.sort then orFault ws.sortBinaryFirst else pure ws
  if o.check then
    unless ← orFault ws.isBinaryFirst do
      throw (.refused .unsorted (some o.input))
  return ws

/-- Writes the result where it is asked for. -/
def deliver (o : Options) (ws : WatchList) : ExceptT Stop m Unit := do
  match o.output? with
  | some path =>
    ws.save .blocker path
    report o (savedMessage path)
  | none =>
    let text ← orFault (ws.dump .blocker)
    (Host.print text : m Unit)

/-- Reads the watch file, does what is asked for, and writes the result. -/
def inspect (o : Options) : ExceptT Stop m Unit := do
  let ws ← WatchList.load o.input
  report o (readMessage ws)
  let ws ← sweepIfAsked o ws
  let ws ← orderIfAsked o ws
  deliver o ws

/-- How a run ended. -/
structure Exit where
  /-- The exit code. -/
  code : Nat
  /-- What goes to standard error. -/
  complaint : String := ""
deriving DecidableEq

/-- The exit of a run that ended early. -/
def exitOf : Stop → Exit
  | .refused e (some path) => ⟨1, "splw: " ++ e.message ++ " (" ++ path ++ ")\n"⟩
  | .refused e none => ⟨1, "splw: " ++ e.message ++ "\n"⟩
  | .fault f => ⟨101, "splw: " ++ f.message?.getD "broken precondition" ++ "\n"⟩

/-- A run with options that were read. The log is opened first. -/
def runWith (o : Options) : m Exit := do
  if let some path := o.log? then
    let _ ← (Host.openLog path : m Bool)
  match ← (inspect o : ExceptT Stop m Unit).run with
  | .ok () => return ⟨0, ""⟩
  | .error stop => return exitOf stop

/-- A run with arguments. Asking for the usage or the version prints it and does
nothing else. -/
def command (args : List String) : m Exit := do
  match Options.read {} args with
  | (_, some e) => return ⟨2, e.message ++ "\n" ++ usage ++ "\n"⟩
  | (o, none) =>
    if o.help then
      Host.print (usage ++ "\n")
      return ⟨0, ""⟩
    if o.version then
      Host.print ("splw " ++ Inspector.version ++ "\n")
      return ⟨0, ""⟩
    runWith o

end WatchLists.Inspector
