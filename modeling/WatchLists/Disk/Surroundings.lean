import WatchLists.Disk.Basic

/-!
# What is around the files

The paths that a user writes lead to more than files: to directories that a run neither
makes nor removes, through links, and to devices. What there is differs from one
machine to the next, and so does what may be opened. All that is known of it is said here,
as a parameter.

- `Device` — a file that is no store of bytes.
- `Surroundings` — what is around the files of a disk.
- `usual` — an example: a run in a directory below `tmp`, with nothing on its standard
  input.
-/

namespace WatchLists

/-- A file that is no store of bytes. -/
inductive Device
  /-- Refuses every byte. To read it would not end, which is told as if it could not
  be read. -/
  | full
  /-- Drops every byte. To read it would not end either. -/
  | zero
  /-- Drops every byte, and is read as the given ones. -/
  | source (content : List UInt8)
  /-- Standard output. It is a stream of its own: it takes every text, after all that it
  took before, and it is no file of the disk. -/
  | output
  /-- Standard error, which is such a stream too. -/
  | error
deriving DecidableEq

/-- What is around the files of a disk, for as long as a run takes. -/
class Surroundings where
  /-- Whether there is a directory at the end of a way from the root, beside those that
  the disk has. -/
  isDirectory : List String → Bool
  /-- The directory that the working directory lies in, by its way from the root. -/
  above : List String
  /-- Where a link leads. A link to a link is said to lead where that one does. -/
  link? : Location → Option Location
  /-- The device at a location. -/
  device? : Location → Option Device
  /-- Whether a file at a location may be read, if there is one. -/
  canRead : Location → Bool
  /-- Whether a file at a location may be written, or made if there is none. -/
  canWrite : Location → Bool
  /-- What may be written may be read. -/
  canRead_of_canWrite : ∀ l, canWrite l = true → canRead l = true
  /-- Where the first file that a run keeps open can be found while it is open. There is
  nothing before. -/
  logDescriptor : Location

namespace Surroundings

/-! ## The usual ones -/

/-- The directories. -/
def usualDirectories : List (List String) :=
  [[], ["boot"], ["dev"], ["dev", "pts"], ["dev", "shm"], ["etc"], ["home"], ["media"], ["mnt"],
   ["opt"], ["proc"], ["proc", "self"], ["proc", "self", "fd"], ["root"], ["run"], ["srv"],
   ["sys"], ["tmp"], ["usr"], ["usr", "bin"], ["usr", "lib"], ["usr", "local"],
   ["usr", "local", "bin"], ["usr", "sbin"], ["usr", "share"], ["var"], ["var", "lib"],
   ["var", "log"], ["var", "tmp"]]

/-- The links, with where they lead. -/
def usualLinks : List (Location × Location) :=
  [(.outside ["bin"], .outside ["usr", "bin"]),
   (.outside ["dev", "fd"], .outside ["proc", "self", "fd"]),
   (.outside ["dev", "stderr"], .outside ["proc", "self", "fd", "2"]),
   (.outside ["dev", "stdin"], .outside ["proc", "self", "fd", "0"]),
   (.outside ["dev", "stdout"], .outside ["proc", "self", "fd", "1"]),
   (.outside ["lib"], .outside ["usr", "lib"]),
   (.outside ["proc", "self", "cwd"], .inside []),
   (.outside ["proc", "self", "root"], .outside []),
   (.outside ["sbin"], .outside ["usr", "sbin"])]

/-- The devices. -/
def usualDevices : List (Location × Device) :=
  [(.outside ["dev", "full"], .full), (.outside ["dev", "null"], .source []),
   (.outside ["dev", "zero"], .zero), (.outside ["proc", "self", "fd", "0"], .source []),
   (.outside ["proc", "self", "fd", "1"], .output),
   (.outside ["proc", "self", "fd", "2"], .error)]

/-- The directories in which everyone can make files. -/
def sharedDirectories : List (List String) := [["tmp"], ["dev", "shm"], ["var", "tmp"]]

/-- Whether everyone can make a file at a location. -/
def isShared : Location → Bool
  | .inside _ => true
  | .outside way => sharedDirectories.contains way.dropLast

instance usual : Surroundings where
  isDirectory way := usualDirectories.contains way
  above := ["tmp"]
  link? l := usualLinks.lookup l
  device? l := usualDevices.lookup l
  canRead := isShared
  canWrite := isShared
  canRead_of_canWrite _ h := h
  logDescriptor := .outside ["proc", "self", "fd", "3"]

end Surroundings

end WatchLists
