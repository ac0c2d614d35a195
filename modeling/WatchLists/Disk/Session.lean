import WatchLists.Disk.Path
import WatchLists.Host
import WatchLists.Text.Encoding

/-!
# A session on a disk

A disk in use: with the place where the log goes, and with what was written to
the standard streams. A session is a host, so a run on it is a function from
disks to disks and texts.

A log that is open can be found by a path, like any file that a run keeps open. Standard
output takes every text at its end, whoever writes it, and is no file of the disk.

- `Session`, `Session.locate` — the state, and what a path names in it.
- `Session.write` — writing to a place.
- the instance `Host (StateM Session)`
-/

namespace WatchLists

section

variable [Surroundings]

/-- Creates a file, or empties the one that is there. A device stays as it is. -/
def Disk.create (d : Disk) : Option Place → Option (Place × Disk)
  | some (.file l) =>
    if Surroundings.canWrite l then some (.file l, d.put l (.file [])) else none
  | some (.device x) => some (.device x, d)
  | none => none

end

/-- A disk in use. -/
structure Session where
  /-- The disk. -/
  disk : Disk
  /-- Where the log goes, with the position after what was written to it. -/
  log : Option (Place × Nat) := none
  /-- What went to standard output. -/
  printed : String := ""
  /-- What went to standard error. -/
  complained : String := ""

namespace Session

/-- Writes a text to a device. A standard stream takes it at its end. -/
def feed (s : Session) (d : Device) (text : String) : Option Session :=
  match d with
  | .full => if text = "" then some s else none
  | .zero | .source _ => some s
  | .output => some { s with printed := s.printed ++ text }
  | .error => some { s with complained := s.complained ++ text }

/-- Writes a text at a position of a created place. -/
def write (s : Session) (place : Place) (position : Nat) (text : String) : Option Session :=
  match place with
  | .file l =>
    (s.disk.writeAt l position (Text.encode text.toList)).map fun d => { s with disk := d }
  | .device d => s.feed d text

/-- Writes a line to the log. -/
def writeLog (s : Session) (line : String) : Bool × Session :=
  let text := line ++ "\n"
  match s.log with
  | none => (true, { s with printed := s.printed ++ text })
  | some (place, position) =>
    match s.write place position text with
    | none => (false, s)
    | some s => (true, { s with log := some (place, position + (Text.encode text.toList).length) })

variable [Surroundings]

/-- What a path names. Where a log is found there is the log, if it is open. -/
def locate (s : Session) (path : String) : Option Place :=
  if s.disk.NamesLog path then s.log.map Prod.fst else s.disk.locate path

/-- The bytes of the file that a path names. -/
def readFile (s : Session) (path : String) : Option (List UInt8) :=
  match s.locate path with
  | some (.file l) => if Surroundings.canRead l then s.disk.content? l else none
  | some (.device (.source content)) => some content
  | _ => none

/-- Makes a file hold a text. -/
def writeFile (s : Session) (path text : String) : Bool × Session :=
  match s.disk.create (s.locate path) with
  | none => (false, s)
  | some (place, d) =>
    match { s with disk := d }.write place 0 text with
    | none => (false, { s with disk := d })
    | some s => (true, s)

/-- Sends the log to a file. A log that was open before is closed first. -/
def openLog (s : Session) (path : String) : Bool × Session :=
  match s.disk.create (s.disk.locate path) with
  | none => (false, { s with log := none })
  | some (place, d) => (true, { s with disk := d, log := some (place, 0) })

/-- A session is a host. -/
instance : Host (StateM Session) where
  readFile path := fun s => (s.readFile path, s)
  writeFile path text := fun s => s.writeFile path text
  openLog path := fun s => s.openLog path
  writeLog line := fun s => s.writeLog line
  print text := fun s => ((), { s with printed := s.printed ++ text })

end Session

end WatchLists
