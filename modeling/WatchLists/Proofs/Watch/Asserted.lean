import WatchLists.Proofs.Bits
import WatchLists.Proofs.Watch.Change

/-!
# The packed words and their assertions

A watch as it is packed in a machine: shifts and masks of a 64-bit word, and an
assertion wherever a number of 64 bits must fit in fewer. Such a step is a partial
function here, without a value where its assertion fails. On watches that pack a view
every step has a value, which is the one that the arithmetic of the model says.

- `Watch.packBits?`, `setPayloadBits?`: a payload is written.
- `ClauseOffset.ofBits?`, `ClauseId.ofBits?`, `Role.ofBits?`: a field is read.
- `View.packBits?`, `Watch.viewBits?`, `Change.applyBits?`: making, viewing and
  changing a watch by these steps.
- `clauseOffset_ofBits?`, `clauseId_ofBits?`, `role_ofBits?`: of the three, only a role
  is not found in every payload.
- `View.packBits?_eq`, `viewBits?_of_fields?`, `applyBits?_of_apply`: where the steps
  have a value, and that it is the one of the fields.
-/

namespace WatchLists

/-! ## Steps with assertions -/

namespace Watch

/-- The wide word without its tag. -/
def payloadBits (w : Watch) : BitVec 64 := w.bits >>> tagBits

/-- The watch with a first word, a kind and a payload, which is asserted to leave room
for the tag. -/
def packBits? (first : Word32) (k : Kind) (p : BitVec 64) : Option Watch :=
  if p >>> usableBits = 0 then
    some ⟨first, (p <<< tagBits ||| BitVec.ofNat 64 k.tag.val).toFin⟩
  else none

/-- The watch with another payload, which is asserted to leave room for the tag, and
the tag bits as they were. -/
def setPayloadBits? (w : Watch) (p : BitVec 64) : Option Watch :=
  if p >>> usableBits = 0 then some ⟨w.first, (p <<< tagBits ||| (w.bits &&& 3)).toFin⟩ else none

end Watch

/-- The offset that a payload holds, which is asserted to be at most the largest. -/
def ClauseOffset.ofBits? (p : BitVec 64) : Option ClauseOffset :=
  if h : p.toNat ≤ max.val.val then some ⟨⟨p.toNat, Nat.lt_succ_of_le h⟩⟩ else none

/-- The identifier above the flags, which is asserted to be at most the largest. -/
def ClauseId.ofBits? (p : BitVec 64) : Option ClauseId :=
  if h : p.toNat ≤ max.val.val then some ⟨⟨p.toNat, Nat.lt_succ_of_le h⟩⟩ else none

/-- The role that a payload stands for, which is asserted to be at most that of the
last one. -/
def Role.ofBits? (p : BitVec 64) : Option Role :=
  if p.toNat ≤ out.payload.val then
    some (if p.toNat = 0 then pos else if p.toNat = 1 then neg else out)
  else none

namespace Change

/-- A change of the words of a watch; a flag is one bit of the payload. -/
def applyBits? (c : Change) (w : Watch) : Option Watch :=
  match c with
  | setBlocker l | setOther l => some (w.setFirst l.raw)
  | clearRed => w.setPayloadBits? (w.payloadBits &&& ~~~1)
  | mark => w.setPayloadBits? (w.payloadBits ||| 2)
  | unmark => w.setPayloadBits? (w.payloadBits &&& ~~~2)

end Change

/-- Packs a view: the identifier is shifted over the flags, and a mark is set
afterwards. -/
def View.packBits? : View Abstraction → Option Watch
  | .clause o d => Watch.packBits? d.bits .clause (BitVec.ofNat 64 o.val.val)
  | .binary l r m i =>
    (Watch.packBits? l.raw .binary
      (BitVec.ofNat 64 i.val.val <<< flagBits ||| if r then 1 else 0)).bind fun w =>
        if m then Change.mark.applyBits? w else some w
  | .bnn i r => Watch.packBits? i .bnn (BitVec.ofNat 64 r.payload.val)
  | .idx i => Watch.packBits? i .idx 0

/-- Unpacks a watch. -/
def Watch.viewBits? (w : Watch) : Option (View Abstraction) :=
  match w.kind with
  | .clause => (ClauseOffset.ofBits? w.payloadBits).map fun o => .clause o ⟨w.first⟩
  | .binary => (ClauseId.ofBits? (w.payloadBits >>> flagBits)).map fun i =>
      .binary (.ofRaw w.first) (w.payloadBits.getLsbD 0) (w.payloadBits.getLsbD 1) i
  | .bnn => (Role.ofBits? w.payloadBits).map (.bnn w.first)
  | .idx => some (.idx w.first)

namespace Watch

/-! ## Writing a payload -/

theorem toNat_payloadBits (w : Watch) : w.payloadBits.toNat = w.payload.val := by
  rw [payloadBits, BitVec.toNat_ushiftRight, Nat.shiftRight_eq_div_pow]
  rfl

/-- A number of 62 bits passes the assertion. -/
theorem shiftRight_usableBits {p : BitVec 64} (h : p.toNat < 0x4000000000000000) :
    p >>> usableBits = 0 := by
  apply BitVec.eq_of_toNat_eq
  rw [BitVec.toNat_ushiftRight, Nat.shiftRight_eq_div_pow]
  exact Nat.div_eq_of_lt h

/-- Above a tag of two bits, a payload of 62 bits is a multiple of four. -/
theorem toNat_payload_or {p t : BitVec 64} (hp : p.toNat < 0x4000000000000000)
    (ht : t.toNat < 4) : (p <<< tagBits ||| t).toNat = 4 * p.toNat + t.toNat := by
  rw [tagBits, toNat_shiftLeft_or (by omega) ht]
  omega

/-- A payload of 62 bits is written beside the tag. -/
theorem packBits?_of_lt (first : Word32) (k : Kind) {p : BitVec 64} {q : Payload}
    (h : p.toNat = q.val) : packBits? first k p = some (pack first k q) := by
  have hp : p.toNat < 0x4000000000000000 := h ▸ q.isLt
  have htag := k.tag.isLt
  have ht : (BitVec.ofNat 64 k.tag.val).toNat = k.tag.val := by
    cases k <;> rfl
  rw [packBits?, if_pos (shiftRight_usableBits hp)]
  refine congrArg some (ext_val rfl ?_)
  show (p <<< tagBits ||| BitVec.ofNat 64 k.tag.val).toNat = 4 * q.val + k.tag.val
  rw [toNat_payload_or hp (by omega), ht, h]

/-- A payload of 62 bits replaces another beside the tag. -/
theorem setPayloadBits?_of_lt (w : Watch) {p : BitVec 64} {q : Payload} (h : p.toNat = q.val) :
    w.setPayloadBits? p = some (w.setPayload q) := by
  have hp : p.toNat < 0x4000000000000000 := h ▸ q.isLt
  have htag := w.kind.tag.isLt
  have ht : (w.bits &&& 3).toNat = w.kind.tag.val := by
    rw [kind, Kind.tag_ofTag]
    exact Nat.and_two_pow_sub_one_eq_mod w.word.val 2
  rw [setPayloadBits?, if_pos (shiftRight_usableBits hp)]
  refine congrArg some (ext_val rfl ?_)
  show (p <<< tagBits ||| (w.bits &&& 3)).toNat = 4 * q.val + w.kind.tag.val
  rw [toNat_payload_or hp (by omega), ht, h]

/-! ## Reading a payload -/

theorem getLsbD_payloadBits (w : Watch) (i : Nat) :
    w.payloadBits.getLsbD i = w.bits.getLsbD (i + 2) := by
  rw [payloadBits, BitVec.getLsbD_ushiftRight, tagBits, Nat.add_comm]

/-- Every payload is an offset. -/
theorem clauseOffset_ofBits? (w : Watch) :
    ClauseOffset.ofBits? w.payloadBits = some ⟨w.payload⟩ := by
  have hle : w.payloadBits.toNat ≤ ClauseOffset.max.val.val := by
    rw [toNat_payloadBits]
    exact Nat.le_of_lt_succ w.payload.isLt
  rw [ClauseOffset.ofBits?, dif_pos hle]
  simp only [toNat_payloadBits, Fin.eta]

/-- What is above the flags of a payload is an identifier. -/
theorem clauseId_ofBits? (w : Watch) :
    ClauseId.ofBits? (w.payloadBits >>> flagBits) = some w.idField := by
  have hval : (w.payloadBits >>> flagBits).toNat = w.payload.val / 4 := by
    rw [BitVec.toNat_ushiftRight, toNat_payloadBits, Nat.shiftRight_eq_div_pow, flagBits]
  have hle : (w.payloadBits >>> flagBits).toNat ≤ ClauseId.max.val.val := by
    rw [hval]
    exact Nat.le_of_lt_succ w.idField.val.isLt
  rw [ClauseId.ofBits?, dif_pos hle]
  simp only [hval, idField]

/-- Only the first three payloads are roles. -/
theorem role_ofBits? (w : Watch) : Role.ofBits? w.payloadBits = Role.ofPayload? w.payload := by
  rw [Role.ofBits?, toNat_payloadBits]
  unfold Role.ofPayload?
  generalize w.payload.val = n
  match n with
  | 0 | 1 | 2 => rfl
  | n + 3 =>
    have hgt : ¬ n + 3 ≤ Role.out.payload.val := Nat.not_le.mpr (Nat.le_add_left 3 n)
    exact if_neg hgt

/-! ## No assertion fails -/

/-- What stands for a view is unpacked as that view. -/
theorem viewBits?_of_fields? {w : Watch} {v : View Abstraction} (h : w.fields? = some v) :
    w.viewBits? = some v := by
  have hred : w.payloadBits.getLsbD 0 = w.flags.red := by rw [getLsbD_payloadBits, red_bit]
  have hmarked : w.payloadBits.getLsbD 1 = w.flags.marked := by
    rw [getLsbD_payloadBits, marked_bit]
  rw [fields?_eq] at h
  rw [viewBits?, clauseOffset_ofBits?, clauseId_ofBits?, role_ofBits?, hred, hmarked]
  cases hk : w.kind with
  | clause | bnn =>
    rw [hk] at h
    exact h
  | binary =>
    simp only [hk] at h
    split at h
    · next hfirst =>
      have hother : Literal.ofRaw w.first = ⟨w.first, hfirst⟩ := dif_neg hfirst
      rw [hother]
      exact h
    · cases h
  | idx =>
    -- nobody looks at the payload
    simp only [hk] at h
    split at h
    · exact h
    · cases h

/-- The payload with new flags is written over the old one. -/
theorem setPayloadBits?_setFlags (w : Watch) (f : BinaryFlags) :
    w.setPayloadBits? (w.setFlags f).payloadBits = some (w.setFlags f) := by
  apply setPayloadBits?_of_lt
  rw [toNat_payloadBits, setFlags, setPayload, payload_pack]

theorem payloadBits_clearRed (w : Watch) :
    (w.setFlags { w.flags with red := false }).payloadBits = w.payloadBits &&& ~~~1 := by
  refine BitVec.eq_of_getLsbD_eq fun i hi => ?_
  rw [getLsbD_payloadBits, getLsbD_setFlags_red, BitVec.getLsbD_and, BitVec.getLsbD_not,
    getLsbD_payloadBits, show (1 : BitVec 64) = BitVec.twoPow 64 0 from rfl, BitVec.getLsbD_twoPow]
  by_cases h0 : i = 0
  · simp [h0]
  · simp [h0, hi, Ne.symm h0]

theorem payloadBits_mark (w : Watch) :
    (w.setFlags { w.flags with marked := true }).payloadBits = w.payloadBits ||| 2 := by
  refine BitVec.eq_of_getLsbD_eq fun i hi => ?_
  rw [getLsbD_payloadBits, getLsbD_setFlags_marked, BitVec.getLsbD_or, getLsbD_payloadBits,
    show (2 : BitVec 64) = BitVec.twoPow 64 1 from rfl, BitVec.getLsbD_twoPow]
  by_cases h1 : i = 1
  · simp [h1]
  · simp [h1, Ne.symm h1]

theorem payloadBits_unmark (w : Watch) :
    (w.setFlags { w.flags with marked := false }).payloadBits = w.payloadBits &&& ~~~2 := by
  refine BitVec.eq_of_getLsbD_eq fun i hi => ?_
  rw [getLsbD_payloadBits, getLsbD_setFlags_marked, BitVec.getLsbD_and, BitVec.getLsbD_not,
    getLsbD_payloadBits, show (2 : BitVec 64) = BitVec.twoPow 64 1 from rfl, BitVec.getLsbD_twoPow]
  by_cases h1 : i = 1
  · simp [h1]
  · simp [h1, hi, Ne.symm h1]

/-- A change is done on the words as it is on the fields. -/
theorem applyBits?_of_apply {c : Change} {w w' : Watch} (h : c.apply w = .ok w') :
    c.applyBits? w = some w' := by
  -- what a change makes of a watch of its kind
  have hdone {k : Kind} {x : Watch} (hx : w.require k x = .ok w') : x = w' := by
    unfold require at hx
    split at hx
    · exact Except.ok.inj hx
    · cases hx
  cases c with
  | setBlocker l | setOther l => exact congrArg some (hdone h)
  | clearRed =>
    obtain rfl := hdone h
    rw [Change.applyBits?, ← payloadBits_clearRed, setPayloadBits?_setFlags]
  | mark =>
    obtain rfl := hdone h
    rw [Change.applyBits?, ← payloadBits_mark, setPayloadBits?_setFlags]
  | unmark =>
    obtain rfl := hdone h
    rw [Change.applyBits?, ← payloadBits_unmark, setPayloadBits?_setFlags]

/-- The payload of a new binary watch: the identifier above the red flag. -/
theorem toNat_binaryPayload (i : ClauseId) (r : Bool) :
    (BitVec.ofNat 64 i.val.val <<< flagBits ||| if r then 1 else 0 : BitVec 64).toNat
      = (binaryPayload i ⟨r, false⟩).val := by
  have hid := i.val.isLt
  have hflags := BinaryFlags.bits_lt ⟨r, false⟩
  have hi : (BitVec.ofNat 64 i.val.val).toNat = i.val.val := Nat.mod_eq_of_lt (by omega)
  have hr : (if r then 1 else 0 : BitVec 64).toNat = BinaryFlags.bits ⟨r, false⟩ := by
    cases r <;> rfl
  have hshift := toNat_payload_or (p := BitVec.ofNat 64 i.val.val) (t := if r then 1 else 0)
    (by omega) (by omega)
  rw [hi, hr] at hshift
  exact hshift

end Watch

/-- A view is packed on the words as it is on the fields. -/
theorem View.packBits?_eq (v : View Abstraction) : v.packBits? = some v.toWatch := by
  cases v with
  | clause o d =>
    exact Watch.packBits?_of_lt _ _ (Nat.mod_eq_of_lt (Nat.lt_trans o.val.isLt (by decide)))
  | binary l r m i =>
    have hnew := Watch.packBits?_of_lt l.raw .binary (Watch.toNat_binaryPayload i r)
    rw [View.packBits?, hnew]
    cases m with
    | false => rfl
    | true =>
      -- the mark is set on a watch without one
      exact Watch.applyBits?_of_apply (Watch.apply_toWatch .mark (.binary l r false i))
  | bnn i r => exact Watch.packBits?_of_lt _ _ (by cases r <;> rfl)
  | idx i => exact Watch.packBits?_of_lt _ _ rfl

end WatchLists
