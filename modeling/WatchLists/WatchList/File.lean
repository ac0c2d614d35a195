import WatchLists.Host
import WatchLists.Watch.Text
import WatchLists.WatchList.Dump

/-!
# Watch lists in files

Reading and writing dumps through a host.

- `Stop` — why an activity on a host ends early.
- `WatchList.load`, `WatchList.save`
-/

namespace WatchLists

/-- Why an activity on a host ends early. -/
inductive Stop
  /-- Something is refused, on account of a file if one is given. -/
  | refused (e : Error) (path? : Option String)
  /-- A precondition is broken. -/
  | fault (f : Fault)
deriving DecidableEq

variable {m : Type → Type} [Monad m]

/-- Goes on with a value, or stops at an error on account of a file. -/
def orRefuse {α : Type} (path : String) (x : Except Error α) : ExceptT Stop m α :=
  match x with
  | .ok a => pure a
  | .error e => throw (.refused e (some path))

/-- Goes on with a value, or stops at a fault. -/
def orFault {α : Type} (x : Except Fault α) : ExceptT Stop m α :=
  match x with
  | .ok a => pure a
  | .error f => throw (.fault f)

variable [Host m]

namespace WatchList

/-- Reads a watch list from a file. -/
def load (path : String) : ExceptT Stop m WatchList := do
  match ← (Host.readFile path : m (Option (List UInt8))) with
  | some bytes => orRefuse path (ofBytes bytes)
  | none => throw (.refused .inaccessible (some path))

/-- Writes a watch list to a file. -/
def save (form : ClauseForm) (path : String) (ws : WatchList) : ExceptT Stop m Unit := do
  let text ← orFault (ws.dump form)
  unless ← (Host.writeFile path text : m Bool) do
    throw (.refused .inaccessible (some path))

end WatchList

end WatchLists
