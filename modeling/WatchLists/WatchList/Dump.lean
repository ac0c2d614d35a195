import WatchLists.Text.Encoding
import WatchLists.Watch.Line
import WatchLists.WatchList.Basic

/-!
# Dumps of watch lists

A watch list as a text of one line a watch, and a text or the bytes of a file as
a watch list. Lines that describe nothing are skipped. The first line that
cannot be read decides the error, whether its bytes are no text or its text is
no watch; a malformed line is reported with its number, from one.

- `WatchList.dump` — writing.
- `WatchList.ofText`, `WatchList.ofBytes` — reading.
-/

namespace WatchLists.WatchList

/-- The lines of a list, each ended by a line feed. -/
def dump (form : ClauseForm) (ws : WatchList) : Except Fault String := do
  let lines ← ws.mapM (Watch.line form)
  return String.join (lines.map fun l => l ++ "\n")

/-- Reads the watches of numbered lines, up to the first that is refused. -/
def ofLines {α : Type} (read : α → Except Error (Option Watch)) (ls : List α) :
    Except Error WatchList := do
  let ws ← (ls.zipIdx 1).mapM fun p => (read p.1).mapError (Error.atLine p.2)
  return ws.reduceOption

/-- Reads a text. -/
def ofText (text : String) : Except Error WatchList :=
  ofLines Watch.ofLine? (Text.lines text.toList)

/-- Reads a line of a file: bytes that must be a text. -/
def ofByteLine? (bs : List UInt8) : Except Error (Option Watch) :=
  match Text.decode? bs with
  | some cs => Watch.ofLine? cs
  | none => .error .inaccessible

/-- Reads the bytes of a file. Lines end at the byte of a line feed. -/
def ofBytes (bs : List UInt8) : Except Error WatchList :=
  ofLines ofByteLine? (Text.linesBy (fun b => decide (b = 10)) bs)

end WatchLists.WatchList
