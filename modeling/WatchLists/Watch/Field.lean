import WatchLists.Watch.Basic

/-!
# The fields of a watch

Reading and changing the fields of a watch. A field belongs to one kind of
watch, and to ask for it of another kind is a fault: the caller broke a
precondition, which is not an error of the input. The model is of a build that asserts
preconditions, and in which finding nothing to remove is an answer and no fault (the
feature `boundary_check` is off).

- `Fault` — the preconditions that can be broken.
- `Watch.offset`, `blocker`, `abstraction` — of a clause watch.
- `Watch.other`, `isRed`, `isMarked`, `clauseId` — of a binary watch.
- `Watch.role`, `bnnIndex`, `index` — of a bnn and of an idx watch.
- `Watch.setBlocker`, `setOther`, `clearRed`, `mark`, `unmark` — the changes.
-/

namespace WatchLists

/-- A broken precondition. -/
inductive Fault
  /-- A field or a change of one kind of watch was asked of another kind. -/
  | wrongKind (w : Watch) (expected : Kind)
  /-- The payload of a bnn watch stands for no role. -/
  | noRole (w : Watch)
  /-- An order was asked about a watch that it leaves out. -/
  | unordered (w : Watch)
  /-- A list of the given length has nothing at a position. -/
  | noSuchPosition (position length : Nat)
deriving DecidableEq

namespace Watch

/-- Hands out `x` if the watch is of kind `k`. A build without assertions would hand it
out for every watch. -/
def require {α : Type} (w : Watch) (k : Kind) (x : α) : Except Fault α :=
  if w.kind = k then .ok x else .error (.wrongKind w k)

/-! ## Clause watches -/

/-- The offset of a clause watch. -/
def offset (w : Watch) : Except Fault ClauseOffset :=
  w.require .clause ⟨w.payload⟩

/-- The first word of a clause watch, under one of its readings. -/
def firstAs (α : Type) [FirstWord α] (w : Watch) : Except Fault α :=
  w.require .clause (FirstWord.decode w.first)

/-- The first word of a clause watch as a blocking literal. -/
def blocker (w : Watch) : Except Fault Literal := w.firstAs Literal

/-- The first word of a clause watch as an abstraction. -/
def abstraction (w : Watch) : Except Fault Abstraction := w.firstAs Abstraction

/-- Replaces the blocking literal of a clause watch. -/
def setBlocker (w : Watch) (l : Literal) : Except Fault Watch :=
  w.require .clause (w.setFirst l.raw)

/-! ## Binary watches -/

/-- The two low bits of the payload, as the flags of a binary watch. -/
def flags (w : Watch) : BinaryFlags := .ofBits w.payload.val

/-- The payload above its two low bits, as the identifier of a binary clause. -/
def idField (w : Watch) : ClauseId :=
  ⟨⟨w.payload.val / 4, by have := w.payload.isLt; omega⟩⟩

/-- The watch with other flags, and the rest of the payload as it was. -/
def setFlags (w : Watch) (f : BinaryFlags) : Watch :=
  w.setPayload (binaryPayload w.idField f)

/-- The other literal of a binary watch. -/
def other (w : Watch) : Except Fault Literal :=
  w.require .binary (.ofRaw w.first)

/-- Whether the clause of a binary watch is redundant. -/
def isRed (w : Watch) : Except Fault Bool :=
  w.require .binary w.flags.red

/-- Whether a binary watch is marked for removal. -/
def isMarked (w : Watch) : Except Fault Bool :=
  w.require .binary w.flags.marked

/-- The identifier of the clause of a binary watch. -/
def clauseId (w : Watch) : Except Fault ClauseId :=
  w.require .binary w.idField

/-- Replaces the other literal of a binary watch. -/
def setOther (w : Watch) (l : Literal) : Except Fault Watch :=
  w.require .binary (w.setFirst l.raw)

/-- Makes the clause of a binary watch irreducible; nothing makes it redundant
again. -/
def clearRed (w : Watch) : Except Fault Watch :=
  w.require .binary (w.setFlags { w.flags with red := false })

/-- Marks a binary watch for removal. -/
def mark (w : Watch) : Except Fault Watch :=
  w.require .binary (w.setFlags { w.flags with marked := true })

/-- Takes the mark of a binary watch away. -/
def unmark (w : Watch) : Except Fault Watch :=
  w.require .binary (w.setFlags { w.flags with marked := false })

/-! ## Bnn and idx watches -/

/-- The index of the constraint of a bnn watch. -/
def bnnIndex (w : Watch) : Except Fault Word32 :=
  w.require .bnn w.first

/-- The role of the literal of a bnn watch. -/
def role (w : Watch) : Except Fault Role :=
  (w.require .bnn w.payload).bind fun p =>
    match Role.ofPayload? p with
    | some r => .ok r
    | none => .error (.noRole w)

/-- The index of an idx watch. -/
def index (w : Watch) : Except Fault Word32 :=
  w.require .idx w.first

/-! ## What is required and what is kept -/

theorem require_of_kind {α : Type} {w : Watch} {k : Kind} (h : w.kind = k) (x : α) :
    w.require k x = .ok x :=
  if_pos h

theorem require_of_ne {α : Type} {w : Watch} {k : Kind} (h : w.kind ≠ k) (x : α) :
    w.require k x = .error (.wrongKind w k) :=
  if_neg h

@[simp]
theorem kind_setFirst (w : Watch) (f : Word32) : (w.setFirst f).kind = w.kind := rfl

@[simp]
theorem payload_setFirst (w : Watch) (f : Word32) : (w.setFirst f).payload = w.payload := rfl

@[simp]
theorem kind_setFlags (w : Watch) (f : BinaryFlags) : (w.setFlags f).kind = w.kind := by
  simp [setFlags, setPayload]

@[simp]
theorem first_setFlags (w : Watch) (f : BinaryFlags) : (w.setFlags f).first = w.first := rfl

@[simp]
theorem flags_setFlags (w : Watch) (f : BinaryFlags) : (w.setFlags f).flags = f := by
  simp [flags, setFlags, setPayload, binaryPayload]

@[simp]
theorem idField_setFlags (w : Watch) (f : BinaryFlags) :
    (w.setFlags f).idField = w.idField := by
  have hf := f.bits_lt
  simp only [idField, setFlags, setPayload, payload_pack, binaryPayload,
    ClauseId.mk.injEq, Fin.mk.injEq]
  omega

end Watch

end WatchLists
