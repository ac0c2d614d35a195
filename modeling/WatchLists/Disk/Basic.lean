/-!
# Files and directories as a value

What a run can read, write and make: files and directories, each at a location, be it
below the working directory or outside. What a machine has beside them is no part of a
disk.

- `Location` — where something is, by the names on the way to it.
- `Entry`, `Disk`, `Disk.get?`, `Disk.put`
- `Disk.content?`, `Disk.overwrite`, `Disk.writeAt` — the bytes of a file.
-/

namespace WatchLists

/-- Where something is. What is below the working directory is located from there, for
where that directory is itself is not known. -/
inductive Location
  /-- At the end of a way from the working directory. -/
  | inside (way : List String)
  /-- At the end of a way from the root. -/
  | outside (way : List String)
deriving DecidableEq

/-- What is at a location. -/
inductive Entry
  /-- A file and its bytes. -/
  | file (content : List UInt8)
  /-- A directory. -/
  | directory
deriving DecidableEq

/-- The files and directories. -/
structure Disk where
  /-- The entries; no location occurs twice. -/
  entries : List (Location × Entry)
deriving DecidableEq

namespace Disk

/-! ## Entries -/

/-- What is found at a location. -/
def get? (d : Disk) (l : Location) : Option Entry := d.entries.lookup l

/-- Puts an entry in place of the one at the same location, or after all others. -/
def put (d : Disk) (l : Location) (e : Entry) : Disk :=
  if (d.get? l).isSome then
    ⟨d.entries.map fun p => if p.1 = l then (l, e) else p⟩
  else ⟨d.entries ++ [(l, e)]⟩

/-- What was put is found, and all else is found as before. -/
theorem get?_put (d : Disk) (l : Location) (e : Entry) (other : Location) :
    (d.put l e).get? other = if other = l then some e else d.get? other := by
  have hmap : ∀ es : List (Location × Entry),
      (es.map fun p => if p.1 = l then (l, e) else p).lookup other
        = if other = l then (es.lookup other).map fun _ => e else es.lookup other := by
    intro es
    induction es with
    | nil => simp
    | cons p es ih =>
      obtain ⟨k, x⟩ := p
      by_cases hok : other = k
      · subst hok
        by_cases hk : other = l <;> simp [hk]
      · have hb : (other == k) = false := beq_false_of_ne hok
        by_cases hk : k = l
        · subst hk
          simp only [List.map_cons, if_true, List.lookup_cons, hb, ih]
        · simp only [List.map_cons, if_neg hk, List.lookup_cons, hb, ih]
  have happ : ∀ es : List (Location × Entry), es.lookup l = none →
      (es ++ [(l, e)]).lookup other = if other = l then some e else es.lookup other := by
    intro es hes
    rw [List.lookup_append]
    by_cases ho : other = l
    · subst ho
      simp [hes]
    · have hb : (other == l) = false := beq_false_of_ne ho
      simp [ho, List.lookup_cons, hb]
  unfold put get?
  split
  · next hsome =>
    obtain ⟨x, hx⟩ := Option.isSome_iff_exists.mp hsome
    rw [hmap]
    by_cases ho : other = l
    · subst ho
      simp [show d.entries.lookup other = some x from hx]
    · simp [ho]
  · next hnone =>
    exact happ _ (Option.not_isSome_iff_eq_none.mp hnone)

/-! ## Bytes -/

/-- The bytes of the file at a location. -/
def content? (d : Disk) (l : Location) : Option (List UInt8) :=
  match d.get? l with
  | some (.file content) => some content
  | _ => none

/-- The content of a file after bytes are written at a position: a gap before
the position holds zeros, and what the bytes do not cover stays. -/
def overwrite (content : List UInt8) (position : Nat) (bytes : List UInt8) : List UInt8 :=
  content.take position ++ List.replicate (position - content.length) 0 ++ bytes
    ++ content.drop (position + bytes.length)

/-- A file that was emptied holds what is written to it first. -/
@[simp]
theorem overwrite_nil (bytes : List UInt8) : overwrite [] 0 bytes = bytes := by
  simp [overwrite]

/-- What is written at the end is appended. -/
theorem overwrite_length (content bytes : List UInt8) :
    overwrite content content.length bytes = content ++ bytes := by
  simp [overwrite]

/-- Writes bytes at a position of the file at a location. -/
def writeAt (d : Disk) (l : Location) (position : Nat) (bytes : List UInt8) : Option Disk :=
  (d.content? l).map fun content => d.put l (.file (overwrite content position bytes))

end Disk

end WatchLists
