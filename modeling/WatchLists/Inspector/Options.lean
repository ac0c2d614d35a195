import WatchLists.Error

/-!
# Options of the inspector

An argument list is a sequence of items: switches, the two files that take the
argument after them whatever it looks like, and one target, the watch file to
read. It is read up to the first argument that cannot be used. What was read
before it takes effect even then, except for the target.

- `Switch`, `Item`, `Item.ofArgs` — the items of an argument list.
- `Options`, `Options.apply` — what the items of a list set.
- `Options.read` — an argument list on top of earlier options.
- `usage`, `version` — the two texts that can be asked for.
-/

namespace WatchLists.Inspector

/-- The version of the program. -/
def version : String := "0.1.0"

/-- How the program is called. -/
def usage : String :=
"splw: inspect and normalize a watch list dump

USAGE:
  splw [FLAGS] [OPTIONS] <watch-file>

FLAGS:
  -q, --quiet    Disable any progress message
  -s, --sort     Sort in the binary-first order
  -w, --sweep    Remove marked binary watches
  -c, --check    Fail if the result isn't in the binary-first order
  -h, --help     Print help information
  -V, --version  Print version information

OPTIONS:
  -o, --output <file>  Output filename (stdout by default)
  -l, --log <file>     Log filename (stdout by default)"

/-! ## Items -/

/-- An option that is on or off. -/
inductive Switch
  /-- No progress messages. -/
  | quiet
  /-- Sort in binary-first order. -/
  | sort
  /-- Remove marked binary watches. -/
  | sweep
  /-- Refuse a result that is not in binary-first order. -/
  | check
  /-- Print the usage and nothing else. -/
  | help
  /-- Print the version and nothing else. -/
  | version
deriving DecidableEq, Repr

/-- The switch that an argument turns on. -/
def Switch.ofArg? (arg : String) : Option Switch :=
  if arg = "-q" ∨ arg = "--quiet" then some .quiet
  else if arg = "-s" ∨ arg = "--sort" then some .sort
  else if arg = "-w" ∨ arg = "--sweep" then some .sweep
  else if arg = "-c" ∨ arg = "--check" then some .check
  else if arg = "-h" ∨ arg = "--help" then some .help
  else if arg = "-V" ∨ arg = "--version" then some .version
  else none

/-- The part of a call that one or two arguments stand for. -/
inductive Item
  /-- A switch. -/
  | turnOn (s : Switch)
  /-- The file for the result. -/
  | output (path : String)
  /-- The file for progress messages. -/
  | log (path : String)
  /-- The watch file to read. -/
  | target (path : String)
deriving DecidableEq, Repr

namespace Item

/-- What an argument that takes the next one makes of it. -/
def taking? (arg : String) : Option (String → Item) :=
  if arg = "-o" ∨ arg = "--output" then some output
  else if arg = "-l" ∨ arg = "--log" then some log
  else none

/-- The items of an argument list, up to the first argument that cannot be used:
one that lacks the argument it takes, an unknown one that starts with `-`, or a
target when one was `seen`. -/
def ofArgs (seen : Bool) : List String → List Item × Option Error
  | [] => ([], none)
  | arg :: rest =>
    match Switch.ofArg? arg, taking? arg, rest with
    | some s, _, rest =>
      let (items, e?) := ofArgs seen rest
      (turnOn s :: items, e?)
    | none, some _, [] => ([], some (.invalidOption arg))
    | none, some item, value :: rest =>
      let (items, e?) := ofArgs seen rest
      (item value :: items, e?)
    | none, none, rest =>
      if arg.toList.head? = some '-' ∨ seen = true then ([], some (.invalidOption arg))
      else
        let (items, e?) := ofArgs true rest
        (target arg :: items, e?)

/-- The path of a target. -/
def target? : Item → Option String
  | target path => some path
  | _ => none

end Item

/-! ## Options -/

/-- What the inspector is asked to do. -/
structure Options where
  /-- The watch file to read. -/
  input : String := ""
  /-- Where the result goes; standard output if not given. -/
  output? : Option String := none
  /-- Where progress messages go; standard output if not given. -/
  log? : Option String := none
  /-- No progress messages. -/
  quiet : Bool := false
  /-- Sort in binary-first order. -/
  sort : Bool := false
  /-- Remove marked binary watches. -/
  sweep : Bool := false
  /-- Refuse a result that is not in binary-first order. -/
  check : Bool := false
  /-- Print the usage and nothing else. -/
  help : Bool := false
  /-- Print the version and nothing else. -/
  version : Bool := false
deriving DecidableEq, Repr

namespace Options

/-- Turns a switch on. -/
def turnOn (o : Options) : Switch → Options
  | .quiet => { o with quiet := true }
  | .sort => { o with sort := true }
  | .sweep => { o with sweep := true }
  | .check => { o with check := true }
  | .help => { o with help := true }
  | .version => { o with version := true }

/-- The effect of an item. A target takes effect only when all arguments can be
used, and not here. -/
def apply (o : Options) : Item → Options
  | .turnOn s => o.turnOn s
  | .output path => { o with output? := some path }
  | .log path => { o with log? := some path }
  | .target _ => o

/-- Reads an argument list on top of earlier options: what the options are then,
and why the list is refused if it is. A target may be missing only if the usage
or the version is asked for. -/
def read (o : Options) (args : List String) : Options × Option Error :=
  let (items, e?) := Item.ofArgs false args
  let o := items.foldl apply o
  match e?, items.findSome? Item.target? with
  | some e, _ => (o, some e)
  | none, some path => ({ o with input := path }, none)
  | none, none =>
    if o.help || o.version then (o, none) else (o, some (.invalidOption "<watch-file>"))

end Options

end WatchLists.Inspector
