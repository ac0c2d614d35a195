import WatchLists.Watch.View

/-!
# The fields in the bits of a watch

The packed form, read bit by bit: which bits of the wide word belong to which
field. The constructors and the fields of a watch are said with `*`, `+`, `/`
and `%`; here they meet the layout of the word.

- `Watch.bits`, `Watch.fields?`: the wide word as bits, and the unpacked form
  that both words stand for. Not every pair of words stands for one.
- `fields?_toWatch`, `toWatch_of_fields?`: packing and this reading are inverse,
  so fields share no bit and no bit is left over.
- `getLsbD_setFlags`: new flags take their two bits; every other bit stays.
-/

namespace WatchLists

namespace View

variable {α β : Type}

/-- The kind that a view is of. -/
def kind : View α → Kind
  | .clause _ _ => .clause
  | .binary _ _ _ _ => .binary
  | .bnn _ _ => .bnn
  | .idx _ => .idx

/-- A view with the first word of a clause watch as it is stored. -/
def stored [FirstWord α] : View α → View Abstraction
  | .clause o d => .clause o ⟨FirstWord.encode d⟩
  | .binary l r m i => .binary l r m i
  | .bnn i r => .bnn i r
  | .idx i => .idx i

/-- Packing stores the first word only. -/
theorem toWatch_stored [FirstWord α] (v : View α) : v.stored.toWatch = v.toWatch := by
  cases v <;> rfl

theorem exists_clause_of_kind {v : View α} (h : v.kind = .clause) : ∃ o d, v = .clause o d := by
  cases v with
  | clause o d => exact ⟨o, d, rfl⟩
  | binary l r m i => cases h
  | bnn i r => cases h
  | idx i => cases h

theorem exists_binary_of_kind {v : View α} (h : v.kind = .binary) :
    ∃ l r m i, v = .binary l r m i := by
  cases v with
  | binary l r m i => exact ⟨l, r, m, i, rfl⟩
  | clause o d => cases h
  | bnn i r => cases h
  | idx i => cases h

@[simp] theorem kind_toWatch [FirstWord α] (v : View α) : v.toWatch.kind = v.kind := by
  cases v <;> exact Watch.kind_pack ..

end View

/-- A payload that stands for a role is the payload of that role. -/
theorem Role.payload_of_ofPayload? {p : Payload} {r : Role} (h : ofPayload? p = some r) :
    r.payload = p := by
  apply Fin.ext
  unfold ofPayload? at h
  split at h <;> cases h <;> simp_all [payload]

namespace Watch

/-! ## The layout of the wide word -/

/-- The wide word as bits, the lowest first. -/
def bits (w : Watch) : BitVec 64 := .ofFin w.word

/-- What the words of a watch stand for. Two bits tag the kind; of the 62 bits
above, a binary watch has one for each flag and 60 for the identifier. A binary
watch without a literal, a bnn watch without a role and an idx watch with a
payload stand for nothing. -/
def fields? (w : Watch) : Option (View Abstraction) :=
  match Kind.ofTag (w.bits.extractLsb' 0 2).toFin with
  | .clause => some (.clause ⟨(w.bits.extractLsb' 2 62).toFin⟩ ⟨w.first⟩)
  | .binary =>
    if h : w.first.val ≠ 0 then
      some (.binary ⟨w.first, h⟩ (w.bits.getLsbD 2) (w.bits.getLsbD 3)
        ⟨(w.bits.extractLsb' 4 60).toFin⟩)
    else none
  | .bnn => (Role.ofPayload? (w.bits.extractLsb' 2 62).toFin).map (.bnn w.first)
  | .idx => if w.bits.extractLsb' 2 62 = 0 then some (.idx w.first) else none

theorem kind_bits (w : Watch) : Kind.ofTag (w.bits.extractLsb' 0 2).toFin = w.kind := by
  rw [kind]
  congr 1

theorem payload_bits (w : Watch) : (w.bits.extractLsb' 2 62).toFin = w.payload := by
  apply Fin.ext
  have := w.word.isLt
  simp only [bits, payload, BitVec.val_toFin, BitVec.extractLsb'_toNat, BitVec.toNat_ofFin,
    Nat.shiftRight_eq_div_pow]
  omega

theorem red_bit (w : Watch) : w.bits.getLsbD 2 = w.flags.red := by
  rw [BitVec.getLsbD, Nat.testBit_eq_decide_div_mod_eq]
  simp only [bits, flags, BinaryFlags.ofBits, payload, BitVec.toNat_ofFin]
  exact decide_eq_decide.mpr (by omega)

theorem marked_bit (w : Watch) : w.bits.getLsbD 3 = w.flags.marked := by
  rw [BitVec.getLsbD, Nat.testBit_eq_decide_div_mod_eq]
  simp only [bits, flags, BinaryFlags.ofBits, payload, BitVec.toNat_ofFin]
  exact decide_eq_decide.mpr (by omega)

theorem id_bits (w : Watch) : ⟨(w.bits.extractLsb' 4 60).toFin⟩ = w.idField := by
  have := w.word.isLt
  simp only [bits, idField, payload, ClauseId.mk.injEq, Fin.ext_iff, BitVec.val_toFin,
    BitVec.extractLsb'_toNat, BitVec.toNat_ofFin, Nat.shiftRight_eq_div_pow]
  omega

/-- The bits of a watch, by its kind and its fields as they are asked for. -/
theorem fields?_eq (w : Watch) :
    w.fields? = match w.kind with
      | .clause => some (.clause ⟨w.payload⟩ ⟨w.first⟩)
      | .binary =>
        if h : w.first.val ≠ 0 then
          some (.binary ⟨w.first, h⟩ w.flags.red w.flags.marked w.idField)
        else none
      | .bnn => (Role.ofPayload? w.payload).map (.bnn w.first)
      | .idx => if w.payload.val = 0 then some (.idx w.first) else none := by
  have hzero : w.bits.extractLsb' 2 62 = 0 ↔ w.payload.val = 0 := by
    rw [← payload_bits, BitVec.val_toFin, BitVec.toNat_eq]
    rfl
  simp only [fields?, kind_bits, payload_bits, red_bit, marked_bit, id_bits, hzero]

/-! ## Packing and reading -/

@[simp] theorem flags_packBinary (l : Literal) (f : BinaryFlags) (i : ClauseId) :
    (packBinary l f i).flags = f := by
  simp [flags, packBinary, binaryPayload]

@[simp] theorem idField_packBinary (l : Literal) (f : BinaryFlags) (i : ClauseId) :
    (packBinary l f i).idField = i := by
  have hf := f.bits_lt
  obtain ⟨i⟩ := i
  simp only [idField, packBinary, payload_pack, binaryPayload, ClauseId.mk.injEq, Fin.ext_iff]
  omega

/-- A binary watch is its first word, its flags and its identifier. -/
theorem pack_binaryPayload (w : Watch) (h : w.kind = .binary) :
    pack w.first .binary (binaryPayload w.idField w.flags) = w := by
  refine ext_fields rfl (by rw [kind_pack, h]) ?_
  rw [payload_pack]
  apply Fin.ext
  have hred : w.flags.red.toNat = w.payload.val % 2 := by
    simp only [flags, BinaryFlags.ofBits]
    rcases Nat.mod_two_eq_zero_or_one w.payload.val with h | h <;> simp [h]
  have hmarked : w.flags.marked.toNat = w.payload.val / 2 % 2 := by
    simp only [flags, BinaryFlags.ofBits]
    rcases Nat.mod_two_eq_zero_or_one (w.payload.val / 2) with h | h <;> simp [h]
  simp only [binaryPayload, BinaryFlags.bits, hred, hmarked, idField]
  omega

/-- What is packed is found in the bits. -/
theorem fields?_toWatch {α : Type} [FirstWord α] (v : View α) :
    v.toWatch.fields? = some v.stored := by
  cases v with
  | clause o d => simp [fields?_eq, View.toWatch, View.stored, ofClause]
  | binary l r m i =>
    have hflags := flags_packBinary l ⟨r, m⟩ i
    have hid := idField_packBinary l ⟨r, m⟩ i
    rw [fields?_eq, View.toWatch, hflags, hid]
    simp [packBinary, View.stored, l.raw_ne_zero]
  | bnn i r => simp [fields?_eq, View.toWatch, View.stored, ofBnn]
  | idx i => simp [fields?_eq, View.toWatch, View.stored, ofIdx]

/-- The bits that are found are all there are. -/
theorem toWatch_of_fields? {w : Watch} {v : View Abstraction} (h : w.fields? = some v) :
    v.toWatch = w := by
  rw [fields?_eq] at h
  cases hk : w.kind with
  | clause =>
    simp only [hk, Option.some.injEq] at h
    subst h
    exact ext_fields rfl (by simp [View.toWatch, ofClause, hk]) (by simp [View.toWatch, ofClause])
  | binary =>
    simp only [hk] at h
    split at h
    · cases h
      exact pack_binaryPayload w hk
    · cases h
  | bnn =>
    simp only [hk, Option.map_eq_some_iff] at h
    obtain ⟨r, hr, rfl⟩ := h
    refine ext_fields rfl (by simp [View.toWatch, ofBnn, hk]) ?_
    rw [View.toWatch, ofBnn, payload_pack]
    exact Role.payload_of_ofPayload? hr
  | idx =>
    simp only [hk] at h
    split at h
    · next hp =>
      cases h
      exact ext_fields rfl (by simp [View.toWatch, ofIdx, hk])
        (Fin.ext (by simp [View.toWatch, ofIdx, hp]))
    · cases h

/-- A watch stands for a view exactly if it packs it. -/
theorem fields?_eq_some_iff {w : Watch} {v : View Abstraction} :
    w.fields? = some v ↔ v.toWatch = w := by
  constructor
  · exact toWatch_of_fields?
  · rintro rfl
    rw [fields?_toWatch]
    cases v <;> rfl

/-! ## Changes of flags as bit operations -/

/-- New flags are written to their two bits; every other bit stays. -/
theorem getLsbD_setFlags (w : Watch) (f : BinaryFlags) (i : Nat) :
    (w.setFlags f).bits.getLsbD i
      = if i = 2 then f.red else if i = 3 then f.marked else w.bits.getLsbD i := by
  by_cases h2 : i = 2
  · rw [if_pos h2, h2, red_bit, flags_setFlags]
  by_cases h3 : i = 3
  · rw [if_neg h2, if_pos h3, h3, marked_bit, flags_setFlags]
  rw [if_neg h2, if_neg h3]
  have hf := f.bits_lt
  have hword : (w.setFlags f).word.val
      = 16 * (w.word.val / 16) + 4 * f.bits + w.word.val % 4 := by
    simp only [setFlags, setPayload, pack, binaryPayload, idField, payload, kind, Kind.tag_ofTag]
    omega
  simp only [bits, BitVec.getLsbD, BitVec.toNat_ofFin, hword]
  by_cases hlow : i < 2
  · -- the tag lies below the flags
    rw [Nat.testBit_eq_decide_div_mod_eq, Nat.testBit_eq_decide_div_mod_eq]
    obtain rfl | rfl : i = 0 ∨ i = 1 := by omega
    all_goals exact decide_eq_decide.mpr (by omega)
  · -- the identifier lies above them
    obtain ⟨j, rfl⟩ := Nat.exists_eq_add_of_le' (show 4 ≤ i by omega)
    rw [Nat.testBit_add, Nat.testBit_add]
    congr 1
    omega

/-- The red flag has one bit. -/
theorem getLsbD_setFlags_red (w : Watch) (b : Bool) (i : Nat) :
    (w.setFlags { w.flags with red := b }).bits.getLsbD i
      = if i = 2 then b else w.bits.getLsbD i := by
  rw [getLsbD_setFlags]
  by_cases h3 : i = 3
  · rw [h3, marked_bit]
    rfl
  · rw [if_neg h3]

/-- The mark has one bit. -/
theorem getLsbD_setFlags_marked (w : Watch) (b : Bool) (i : Nat) :
    (w.setFlags { w.flags with marked := b }).bits.getLsbD i
      = if i = 3 then b else w.bits.getLsbD i := by
  rw [getLsbD_setFlags]
  by_cases h2 : i = 2
  · rw [h2, red_bit]
    rfl
  · rw [if_neg h2]

end Watch

end WatchLists
