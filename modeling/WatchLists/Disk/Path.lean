import WatchLists.Disk.Surroundings

/-!
# What a path names

A path is followed name by name, from the root if it begins with a slash, else
from the working directory. It may pass through directories only, and it leads to
a file, to where a file can be made, or to a device.

- `Location.child`, `Location.parent` — one step on the way.
- `Disk.follow`, `Disk.find` — the whole way.
- `Place`, `Disk.locate` — what is there, as long as no log is open.
- `Disk.NamesLog` — a path to the log, if one is open.
-/

namespace WatchLists

/-- What can be opened. -/
inductive Place
  /-- A file, which need not be there yet. -/
  | file (l : Location)
  /-- A device. -/
  | device (d : Device)
deriving DecidableEq

section

variable [Surroundings]

namespace Location

/-! ## Steps -/

/-- A location in a directory, by its name. -/
def entry : Location → String → Location
  | .inside way, name => .inside (way ++ [name])
  | .outside way, name => .outside (way ++ [name])

/-- Where a name in a directory leads. -/
def child (l : Location) (name : String) : Location :=
  (Surroundings.link? (l.entry name)).getD (l.entry name)

/-- The directory above. The root is above itself. -/
def parent : Location → Location
  | .inside [] => .outside Surroundings.above
  | .inside (name :: names) => .inside (name :: names).dropLast
  | .outside way => .outside way.dropLast

/-- What can be opened at a location that is no directory. -/
def place (l : Location) : Place :=
  match Surroundings.device? l with
  | some x => .device x
  | none => .file l

end Location

namespace Disk

/-! ## Paths -/

/-- The names of a path, between its slashes. -/
def namesOf (path : String) : List String :=
  (path.toList.splitOnP fun c => decide (c = '/')).map String.ofList

/-- Whether a path and its names are within the limits of a file system. -/
def isUsable (path : String) : Bool :=
  decide (path.utf8ByteSize < 4096) && !path.toList.contains '\x00'
    && (namesOf path).all fun n => decide (n.utf8ByteSize ≤ 255)

/-- Whether there is a directory at a location that is not of the disk. -/
def isGivenDirectory : Location → Bool
  | .inside way => decide (way = [])
  | .outside way => Surroundings.isDirectory way

/-- Whether there is a directory at a location. -/
def isDirectory (d : Disk) (l : Location) : Bool :=
  isGivenDirectory l || decide (d.get? l = some .directory)

/-- Follows names from a directory. The last name must not be that of a
directory, and every other one must be. -/
def follow (d : Disk) (l : Location) : List String → Option Location
  | [] => none
  | [name] =>
    if name = "" ∨ name = "." ∨ name = ".." then none
    else if d.isDirectory (l.child name) then none
    else some (l.child name)
  | name :: rest =>
    if name = "" ∨ name = "." then d.follow l rest
    else if name = ".." then d.follow l.parent rest
    else if d.isDirectory (l.child name) then d.follow (l.child name) rest
    else none

/-- Where a path leads. -/
def find (d : Disk) (path : String) : Option Location :=
  if isUsable path then
    match namesOf path with
    | "" :: name :: names => d.follow (.outside []) (name :: names)
    | names => d.follow (.inside []) names
  else none

/-- A path leads to where a log is found once it is open. -/
def NamesLog (d : Disk) (path : String) : Prop :=
  d.find path = some Surroundings.logDescriptor

instance (d : Disk) (path : String) : Decidable (d.NamesLog path) :=
  inferInstanceAs (Decidable (_ = _))

/-- What a path names as long as no log is open. -/
def locate (d : Disk) (path : String) : Option Place :=
  if d.NamesLog path then none else (d.find path).map Location.place

end Disk

end

/-! ## Paths in the usual surroundings -/

example : Disk.locate ⟨[]⟩ "/dev/../tmp/.././dev/full" = some (.device .full) := by
  decide +kernel

example : Disk.locate ⟨[(.inside ["d"], .directory)]⟩ "d/../../../../dev/null"
    = some (.device (.source [])) := by
  decide +kernel

example : Disk.locate ⟨[]⟩ "/dev/full/.." = none := by decide +kernel

example : Disk.locate ⟨[]⟩ "/proc/self/cwd/./w" = some (.file (.inside ["w"])) := by
  decide +kernel

end WatchLists
