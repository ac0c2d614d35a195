/-!
# The host of a run

What a run of the inspector asks of its surroundings: files by their paths, a
log, and standard output. The inspector is written against this interface, so
that the same definition runs on the machine and on a directory that is held as
a value.

Standard output is taken to be a stream of its own: it is no file that a path names
but for the names it has as a device, it takes every text, and a text is added at its end,
whether it is printed, or is a line of a log without a file, or is written to a file that
is a name of it. So neither printing nor a log without a file can fail.

- `Host` — the effects.
- `consoleLog` — how a log without a file is shown.
-/

namespace WatchLists

/-- The effects of a run. Paths are texts, as the user wrote them. -/
class Host (m : Type → Type) where
  /-- The bytes of a file, or `none` if it cannot be read. -/
  readFile : String → m (Option (List UInt8))
  /-- Makes a file hold a text, whatever it held before; `false` if the file
  cannot be created or written. -/
  writeFile : String → String → m Bool
  /-- Sends the log to a file, which is emptied; `false` if the file cannot be
  created, and then the log goes to standard output. -/
  openLog : String → m Bool
  /-- Writes one line to the log, after what was written to it before; `false` if
  that fails. -/
  writeLog : String → m Bool
  /-- Writes to standard output, which takes it. -/
  print : String → m Unit

/-- How a log that goes to standard output is shown. -/
def consoleLog : String := "Dump(None)"

end WatchLists
