import WatchLists.Handle
import WatchLists.Literal

/-!
# Watches

A watch is an entry of a watch list: it says which constraint to look at when a
literal becomes false. It is packed in a 32-bit word and a 64-bit word. The two
low bits of the wide word tag the kind of the watch, and the 62 bits above are
its payload:

| kind    | first word                         | payload                    |
|---------|------------------------------------|----------------------------|
| clause  | a blocking literal, or abstraction | the offset of the clause   |
| binary  | the other literal of the clause    | identifier, marked, red    |
| bnn     | the index of a constraint          | the role of the literal    |
| idx     | an index                           | zero                       |

- `Kind`, `Role` — what the tag and a bnn payload stand for.
- `Watch`, `Watch.kind`, `Watch.payload`, `Watch.pack` — the packed form.
- `FirstWord` — the two readings of a clause watch's first word.
- `Watch.ofClause`, `ofBinary`, `ofBinaryId`, `ofBnn`, `ofIdx` — the constructors.
- `kind_pack`, `payload_pack`, `pack_kind_payload` — tag and payload are kept
  apart, and together they are the whole word.
-/

namespace WatchLists

/-! ## Kinds and roles -/

/-- What a watch refers to. -/
inductive Kind
  /-- A long clause in the clause arena. -/
  | clause
  /-- A binary clause, held in the watch itself. -/
  | binary
  /-- A literal of a thresholded linear constraint. -/
  | bnn
  /-- An element of an external array. -/
  | idx
deriving DecidableEq, Repr

namespace Kind

/-- The tag of a kind. -/
def tag : Kind → Fin 4
  | clause => 0
  | binary => 1
  | bnn => 2
  | idx => 3

/-- The kind with a tag. -/
def ofTag : Fin 4 → Kind
  | 0 => clause
  | 1 => binary
  | 2 => bnn
  | 3 => idx

@[simp]
theorem ofTag_tag (k : Kind) : ofTag k.tag = k := by
  cases k <;> rfl

@[simp]
theorem tag_ofTag : ∀ t : Fin 4, (ofTag t).tag = t := by
  decide

end Kind

/-- The role of a literal in a thresholded linear constraint. -/
inductive Role
  /-- An input whose truth counts. -/
  | pos
  /-- An input whose falsity counts. -/
  | neg
  /-- The output of the constraint. -/
  | out
deriving DecidableEq, Repr

namespace Role

/-- The payload that stands for a role. -/
def payload : Role → Payload
  | pos => ⟨0, by decide⟩
  | neg => ⟨1, by decide⟩
  | out => ⟨2, by decide⟩

/-- The role that a payload stands for; payloads above two stand for none. -/
def ofPayload? (p : Payload) : Option Role :=
  match p.val with
  | 0 => some pos
  | 1 => some neg
  | 2 => some out
  | _ => none

/-- The word for a role. -/
def text : Role → String
  | pos => "pos"
  | neg => "neg"
  | out => "out"

@[simp]
theorem ofPayload?_payload (r : Role) : ofPayload? r.payload = some r := by
  cases r <;> rfl

end Role

/-! ## The packed form -/

/-- An entry of a watch list, in two words. -/
structure Watch where
  /-- A blocking literal or abstraction, the other literal, or an index. -/
  first : Word32
  /-- The payload above the tag. -/
  word : Word64
deriving DecidableEq

namespace Watch

/-- The kind that the two low bits tag. -/
def kind (w : Watch) : Kind :=
  Kind.ofTag ⟨w.word.val % 4, Nat.mod_lt _ (by decide)⟩

/-- The 62 bits above the tag. -/
def payload (w : Watch) : Payload :=
  ⟨w.word.val / 4, by have := w.word.isLt; omega⟩

/-- The watch with the given first word, kind and payload. -/
def pack (first : Word32) (k : Kind) (p : Payload) : Watch :=
  ⟨first, ⟨4 * p.val + k.tag.val, by have := p.isLt; have := k.tag.isLt; omega⟩⟩

/-- The watch with another payload, and the kind it had. -/
def setPayload (w : Watch) (p : Payload) : Watch :=
  pack w.first w.kind p

/-- The watch with another first word. -/
def setFirst (w : Watch) (first : Word32) : Watch :=
  ⟨first, w.word⟩

theorem ext_val {v w : Watch} (hf : v.first = w.first) (hw : v.word.val = w.word.val) :
    v = w := by
  obtain ⟨_, ⟨_, _⟩⟩ := v
  obtain ⟨_, ⟨_, _⟩⟩ := w
  cases hf
  cases hw
  rfl

@[simp]
theorem first_pack (f : Word32) (k : Kind) (p : Payload) : (pack f k p).first = f := rfl

@[simp]
theorem kind_pack (f : Word32) (k : Kind) (p : Payload) : (pack f k p).kind = k := by
  have ht := k.tag.isLt
  have hmod : (4 * p.val + k.tag.val) % 4 = k.tag.val := by omega
  simp only [kind, pack, hmod, Fin.eta, Kind.ofTag_tag]

@[simp]
theorem payload_pack (f : Word32) (k : Kind) (p : Payload) : (pack f k p).payload = p := by
  have ht := k.tag.isLt
  apply Fin.ext
  simp only [payload, pack]
  omega

/-- A watch is its first word, its kind and its payload. -/
@[simp]
theorem pack_kind_payload (w : Watch) : pack w.first w.kind w.payload = w := by
  apply ext_val
  · rfl
  · simp only [pack, kind, payload, Kind.tag_ofTag]
    omega

/-- Two watches with the same first word, kind and payload are equal. -/
theorem ext_fields {v w : Watch} (hf : v.first = w.first) (hk : v.kind = w.kind)
    (hp : v.payload = w.payload) : v = w := by
  rw [← pack_kind_payload v, ← pack_kind_payload w, hf, hk, hp]

/-- Whether a watch is of a kind. -/
def isKind (w : Watch) (k : Kind) : Bool := decide (w.kind = k)

end Watch

/-! ## The first word of a clause watch -/

/-- A reading of the first word of a clause watch. The watch does not remember
which reading wrote it. -/
class FirstWord (α : Type) where
  /-- The word that is stored. -/
  encode : α → Word32
  /-- What is read from a word. -/
  decode : Word32 → α

/-- A blocking literal: a literal of the clause. -/
instance : FirstWord Literal := ⟨Literal.raw, Literal.ofRaw⟩

/-- An abstraction of the clause. -/
instance : FirstWord Abstraction := ⟨Abstraction.bits, Abstraction.mk⟩

/-! ## Constructors -/

/-- The payload of a binary watch: the identifier above the flags. -/
def binaryPayload (id : ClauseId) (f : BinaryFlags) : Payload :=
  ⟨4 * id.val.val + f.bits, by have := id.val.isLt; have := f.bits_lt; omega⟩

namespace Watch

/-- A watch of the long clause at an offset, with a blocking literal or an
abstraction. -/
def ofClause {α : Type} [FirstWord α] (o : ClauseOffset) (data : α) : Watch :=
  pack (FirstWord.encode data) .clause o.val

/-- A watch of a binary clause with all its fields. -/
def packBinary (other : Literal) (f : BinaryFlags) (id : ClauseId) : Watch :=
  pack other.raw .binary (binaryPayload id f)

/-- A watch of a binary clause, unmarked, by its other literal. -/
def ofBinary (other : Literal) (red : Bool) (id : ClauseId) : Watch :=
  packBinary other ⟨red, false⟩ id

/-- A watch of a binary clause, unmarked, by a number of unchecked size for its
identifier. -/
def ofBinaryId (other : Literal) (red : Bool) (id : Nat) : Except Error Watch :=
  (ClauseId.ofNat id).map (ofBinary other red)

/-- A watch of a thresholded constraint, by its index. -/
def ofBnn (index : Word32) (r : Role) : Watch :=
  pack index .bnn r.payload

/-- A watch of an element of an external array. -/
def ofIdx (index : Word32) : Watch :=
  pack index .idx ⟨0, by decide⟩

/-- A watch of no clause: its offset is the one the arena never hands out. -/
def placeholder : Watch :=
  pack Word32.allOnes .clause ClauseOffset.max.val

instance : Inhabited Watch := ⟨placeholder⟩

end Watch

end WatchLists
