import WatchLists.Proofs.Text.Numerals
import WatchLists.Proofs.Text.Words
import WatchLists.Proofs.Watch.AssertedLine

/-!
# The grammar of lines

What a line means, said without a reader: its words, the shape they have, what each
word denotes, and the first thing that is wrong. A watch that is meant is told by the
fields in its bits. The reader gives every line its meaning, and no other.

- `Field`: a word is not of the field, or has a value in range or out of range.
- `OffsetField`, `IdField`, `LiteralField`, `WordField`, `FlagField`, `RoleField`,
  `MarkField`: the fields of lines.
- `LineMeaning`: the shapes of lines, each with its checks in their order.
- `LineMeaning.isOfLine`: the errors that lines have.
- `ofLine_eq_iff_meaning`: reading a line is finding its meaning, and no assertion fails
  on the way.
-/

namespace WatchLists.Grammar

open Numeral Text

/-! ## Fields -/

/-- What a part of a line yields, where `Denotes` says what it stands for, and
`Value` which of these values are in range. -/
inductive Field {σ ν α : Type} (Denotes : σ → ν → Prop) (Value : ν → Except Error α → Prop)
    (w : σ) : Except Error α → Prop
  /-- It stands for nothing. -/
  | unreadable (h : ∀ x, ¬ Denotes w x) : Field Denotes Value w (.error (.malformedLine 0))
  /-- It stands for a value, whose range decides. -/
  | value {x : ν} {r : Except Error α} (h : Denotes w x) (hr : Value x r) :
    Field Denotes Value w r

/-- Every value is in range. -/
def InRange {α : Type} (x : α) (r : Except Error α) : Prop := r = .ok x

/-- A handle is made of a number below a bound. Of a larger one there is none, and
the error names it. -/
inductive HandleValue {α : Type} (bound : Nat) (make : Fin bound → α) (tooLarge : Nat → Error)
    (n : Word64) : Except Error α → Prop
  /-- It fits. -/
  | fits (h : n.val < bound) : HandleValue bound make tooLarge n (.ok (make ⟨n.val, h⟩))
  /-- It does not. -/
  | tooLarge (h : bound ≤ n.val) : HandleValue bound make tooLarge n (.error (tooLarge n.val))

/-- Literals are nonzero integers whose variable is below the largest one. -/
inductive LiteralValue (x : Int) : Except Error Literal → Prop
  /-- The literal of a variable, which is positive if the integer is. -/
  | literal {l : Literal} (hpos : 0 < x.natAbs) (hlt : x.natAbs < 2147483647)
    (hraw : l.raw.val = 2 * x.natAbs + if 0 < x then 1 else 0) : LiteralValue x (.ok l)
  /-- Zero, or an integer out of range. -/
  | invalid (h : x.natAbs = 0 ∨ 2147483647 ≤ x.natAbs) : LiteralValue x (.error .invalidLiteral)

/-- A clause offset, of 62 bits. -/
def OffsetField : List Char → Except Error ClauseOffset → Prop :=
  Field (Unsigned _) (HandleValue 0x4000000000000000 ClauseOffset.mk .offsetOverflow)

/-- The identifier of a binary clause, of 60 bits. -/
def IdField : List Char → Except Error ClauseId → Prop :=
  Field (Unsigned _) (HandleValue 0x1000000000000000 ClauseId.mk .idOverflow)

/-- A literal. -/
def LiteralField : List Char → Except Error Literal → Prop := Field Signed64 LiteralValue

/-- An abstraction or an index. -/
def WordField : List Char → Except Error Word32 → Prop := Field (Unsigned _) InRange

/-- Whether a binary clause is redundant. -/
def FlagField : List Char → Except Error Bool → Prop :=
  Field (fun w b => w = [if b then '1' else '0']) InRange

/-- The role of a literal. -/
def RoleField : List Char → Except Error Role → Prop :=
  Field (fun w r => w = r.text.toList) InRange

/-- The mark of a binary watch: a word, or none. -/
def MarkField : List (List Char) → Except Error Bool → Prop :=
  Field (fun ms m => ms = if m then [['m']] else []) InRange

/-! ## Lines -/

/-- The first words of lines, each with the number of words after it. -/
def shapes : List (List Char × Nat) :=
  [(['c'], 2), (['a'], 2), (['b'], 3), (['b'], 4), (['n'], 2), (['i'], 1)]

/-- What the words of a line mean: nothing, a watch with the fields that they denote,
or an error. A line that is wrong in several places has the error of the place that is
checked first. -/
inductive LineMeaning : List (List Char) → Except Error (Option Watch) → Prop
  /-- A line without words. -/
  | empty : LineMeaning [] (.ok none)
  /-- A comment. -/
  | comment {cs : List Char} {args : List (List Char)} :
    LineMeaning (('#' :: cs) :: args) (.ok none)
  /-- A line of no shape. -/
  | shapeless {head : List Char} {args : List (List Char)} (hhead : head.head? ≠ some '#')
    (hshape : (head, args.length) ∉ shapes) :
    LineMeaning (head :: args) (.error (.malformedLine 0))
  /-- A long clause with a blocking literal. -/
  | clause {o l : List Char} {offset : ClauseOffset} {blocker : Literal} {w : Watch}
    (ho : OffsetField o (.ok offset)) (hl : LiteralField l (.ok blocker))
    (hw : w.fields? = some (.clause offset ⟨blocker.raw⟩)) :
    LineMeaning [['c'], o, l] (.ok (some w))
  /-- First, the offset. -/
  | clauseOffset {o l : List Char} {e : Error} (ho : OffsetField o (.error e)) :
    LineMeaning [['c'], o, l] (.error e)
  /-- Second, the blocking literal. -/
  | clauseBlocker {o l : List Char} {offset : ClauseOffset} {e : Error}
    (ho : OffsetField o (.ok offset)) (hl : LiteralField l (.error e)) :
    LineMeaning [['c'], o, l] (.error e)
  /-- A long clause with an abstraction. -/
  | abstraction {o a : List Char} {offset : ClauseOffset} {bits : Word32} {w : Watch}
    (ho : OffsetField o (.ok offset)) (ha : WordField a (.ok bits))
    (hw : w.fields? = some (.clause offset ⟨bits⟩)) :
    LineMeaning [['a'], o, a] (.ok (some w))
  /-- First, the offset. -/
  | abstractionOffset {o a : List Char} {e : Error} (ho : OffsetField o (.error e)) :
    LineMeaning [['a'], o, a] (.error e)
  /-- Second, the abstraction. -/
  | abstractionBits {o a : List Char} {offset : ClauseOffset} {e : Error}
    (ho : OffsetField o (.ok offset)) (ha : WordField a (.error e)) :
    LineMeaning [['a'], o, a] (.error e)
  /-- A binary clause. -/
  | binary {l r i : List Char} {ms : List (List Char)} {other : Literal} {red marked : Bool}
    {id : ClauseId} {w : Watch} (hr : FlagField r (.ok red)) (hl : LiteralField l (.ok other))
    (hi : IdField i (.ok id)) (hm : MarkField ms (.ok marked))
    (hw : w.fields? = some (.binary other red marked id)) :
    LineMeaning (['b'] :: l :: r :: i :: ms) (.ok (some w))
  /-- First, the flag. -/
  | binaryFlag {l r i : List Char} {ms : List (List Char)} {e : Error} (hms : ms.length ≤ 1)
    (hr : FlagField r (.error e)) : LineMeaning (['b'] :: l :: r :: i :: ms) (.error e)
  /-- Second, the literal. -/
  | binaryOther {l r i : List Char} {ms : List (List Char)} {red : Bool} {e : Error}
    (hms : ms.length ≤ 1) (hr : FlagField r (.ok red)) (hl : LiteralField l (.error e)) :
    LineMeaning (['b'] :: l :: r :: i :: ms) (.error e)
  /-- Third, the identifier. -/
  | binaryId {l r i : List Char} {ms : List (List Char)} {red : Bool} {other : Literal}
    {e : Error} (hms : ms.length ≤ 1) (hr : FlagField r (.ok red))
    (hl : LiteralField l (.ok other)) (hi : IdField i (.error e)) :
    LineMeaning (['b'] :: l :: r :: i :: ms) (.error e)
  /-- Fourth, the mark. -/
  | binaryMark {l r i : List Char} {ms : List (List Char)} {red : Bool} {other : Literal}
    {id : ClauseId} {e : Error} (hms : ms.length ≤ 1) (hr : FlagField r (.ok red))
    (hl : LiteralField l (.ok other)) (hi : IdField i (.ok id)) (hm : MarkField ms (.error e)) :
    LineMeaning (['b'] :: l :: r :: i :: ms) (.error e)
  /-- A literal of a thresholded constraint. -/
  | bnn {i r : List Char} {index : Word32} {role : Role} {w : Watch}
    (hr : RoleField r (.ok role)) (hi : WordField i (.ok index))
    (hw : w.fields? = some (.bnn index role)) : LineMeaning [['n'], i, r] (.ok (some w))
  /-- First, the role. -/
  | bnnRole {i r : List Char} {e : Error} (hr : RoleField r (.error e)) :
    LineMeaning [['n'], i, r] (.error e)
  /-- Second, the index. -/
  | bnnIndex {i r : List Char} {role : Role} {e : Error} (hr : RoleField r (.ok role))
    (hi : WordField i (.error e)) : LineMeaning [['n'], i, r] (.error e)
  /-- An index. -/
  | idx {i : List Char} {index : Word32} {w : Watch} (hi : WordField i (.ok index))
    (hw : w.fields? = some (.idx index)) : LineMeaning [['i'], i] (.ok (some w))
  /-- Only the index is checked. -/
  | idxIndex {i : List Char} {e : Error} (hi : WordField i (.error e)) :
    LineMeaning [['i'], i] (.error e)

/-! ## Reading fields -/

open Watch

/-- A reader that finds what a word stands for, and then checks its range, reads a
field. -/
theorem field_iff {ν α : Type} {Denotes : List Char → ν → Prop}
    {Value : ν → Except Error α → Prop} {read? : List Char → Option ν}
    {check : ν → Except Error α} (hread : ∀ w x, read? w = some x ↔ Denotes w x)
    (hcheck : ∀ x r, check x = r ↔ Value x r) (w : List Char) (r : Except Error α) :
    (read? w).elim malformed check = r ↔ Field Denotes Value w r := by
  constructor
  · rintro rfl
    cases hw : read? w with
    | none =>
      refine .unreadable fun x hx => ?_
      rw [(hread w x).mpr hx] at hw
      cases hw
    | some x => exact .value ((hread w x).mp hw) ((hcheck x _).mp rfl)
  · intro h
    cases h with
    | unreadable h =>
      cases hw : read? w with
      | none => rfl
      | some x => exact absurd ((hread w x).mp hw) (h x)
    | @value x _ h hr =>
      rw [(hread w x).mpr h]
      exact (hcheck x r).mpr hr

theorem inRange_iff {α : Type} {x : α} {r : Except Error α} : .ok x = r ↔ InRange x r := eq_comm

theorem handle_iff {α : Type} {bound : Nat} {make : Fin bound → α} {tooLarge : Nat → Error}
    {n : Word64} {r : Except Error α} :
    (if h : n.val < bound then .ok (make ⟨n.val, h⟩) else .error (tooLarge n.val)) = r
      ↔ HandleValue bound make tooLarge n r := by
  constructor
  · rintro rfl
    split
    · next h => exact .fits h
    · next h => exact .tooLarge (Nat.le_of_not_lt h)
  · rintro (h | h)
    · exact dif_pos h
    · exact dif_neg (Nat.not_lt.mpr h)

theorem literal_iff {x : Int} {r : Except Error Literal} :
    Literal.ofDimacs x = r ↔ LiteralValue x r := by
  have hsign : (decide (0 < x)).toNat = if 0 < x then 1 else 0 := by
    by_cases h : 0 < x <;> simp [h]
  unfold Literal.ofDimacs Literal.ofVar?
  constructor
  · rintro rfl
    by_cases h : 0 < x.natAbs ∧ x.natAbs < 2147483647
    · rw [dif_pos h]
      exact .literal h.1 h.2 (by simp only [hsign])
    · rw [dif_neg h]
      exact .invalid (by omega)
  · rintro (⟨hpos, hlt, hraw⟩ | h)
    · rw [dif_pos ⟨hpos, hlt⟩]
      exact congrArg Except.ok (Literal.ext (by simp only [hsign, hraw]))
    · rw [dif_neg (by omega)]

theorem readOffset_iff {w : List Char} {r : Except Error ClauseOffset} :
    readOffset w = r ↔ OffsetField w r := by
  have heq : readOffset w = (readFin? 0x10000000000000000 w).elim malformed fun n =>
      ClauseOffset.ofNat n.val := by
    unfold readOffset
    cases readFin? 0x10000000000000000 w <;> rfl
  rw [heq]
  refine field_iff (fun _ _ => ?_) (fun _ _ => ?_) w r
  · exact readFin?_eq_some_iff
  · exact handle_iff

theorem readClauseId_iff {w : List Char} {r : Except Error ClauseId} :
    readClauseId w = r ↔ IdField w r := by
  have heq : readClauseId w = (readFin? 0x10000000000000000 w).elim malformed fun n =>
      ClauseId.ofNat n.val := by
    unfold readClauseId
    cases readFin? 0x10000000000000000 w <;> rfl
  rw [heq]
  refine field_iff (fun _ _ => ?_) (fun _ _ => ?_) w r
  · exact readFin?_eq_some_iff
  · exact handle_iff

theorem readLiteral_iff {w : List Char} {r : Except Error Literal} :
    readLiteral w = r ↔ LiteralField w r := by
  have heq : readLiteral w = (readInt64? w).elim malformed Literal.ofDimacs := by
    unfold readLiteral
    cases readInt64? w <;> rfl
  rw [heq]
  refine field_iff (fun _ _ => ?_) (fun _ _ => ?_) w r
  · exact readInt64?_eq_some_iff
  · exact literal_iff

theorem readWord32_iff {w : List Char} {r : Except Error Word32} :
    readWord32 w = r ↔ WordField w r := by
  have heq : readWord32 w = (readFin? 0x100000000 w).elim malformed .ok := by
    unfold readWord32
    cases readFin? 0x100000000 w <;> rfl
  rw [heq]
  refine field_iff (fun _ _ => ?_) (fun _ _ => ?_) w r
  · exact readFin?_eq_some_iff
  · exact inRange_iff

theorem readDigit_iff {w : List Char} {r : Except Error Bool} :
    readDigit w = r ↔ FlagField w r := by
  constructor
  · rintro rfl
    unfold readDigit
    split
    · exact .value (x := false) rfl rfl
    · exact .value (x := true) rfl rfl
    · next hzero hone =>
      refine .unreadable fun b hb => ?_
      cases b with
      | false => exact hzero hb
      | true => exact hone hb
  · rintro (h | ⟨rfl, rfl⟩)
    · unfold readDigit
      split
      · exact absurd rfl (h false)
      · exact absurd rfl (h true)
      · rfl
    · next b => cases b <;> rfl

theorem readRole_iff {w : List Char} {r : Except Error Role} :
    readRole w = r ↔ RoleField w r := by
  constructor
  · rintro rfl
    unfold readRole
    split
    · exact .value (x := Role.pos) (by simp [Role.text]) rfl
    · exact .value (x := Role.neg) (by simp [Role.text]) rfl
    · exact .value (x := Role.out) (by simp [Role.text]) rfl
    · next hpos hneg hout =>
      refine .unreadable fun x hx => ?_
      cases x with
      | pos => exact hpos hx
      | neg => exact hneg hx
      | out => exact hout hx
  · rintro (h | ⟨rfl, rfl⟩)
    · unfold readRole
      split
      · exact absurd rfl (h .pos)
      · exact absurd rfl (h .neg)
      · exact absurd rfl (h .out)
      · rfl
    · next x => cases x <;> rfl

/-- Reads the words after the identifier of a binary watch. -/
def readMark : List (List Char) → Except Error Bool
  | [] => .ok false
  | [m] => if m = ['m'] then .ok true else malformed
  | _ => malformed

theorem readMark_iff {ms : List (List Char)} {r : Except Error Bool} :
    readMark ms = r ↔ MarkField ms r := by
  constructor
  · rintro rfl
    unfold readMark
    split
    · exact .value (x := false) rfl rfl
    · next m =>
      by_cases hm : m = ['m']
      · subst hm
        exact .value (x := true) rfl rfl
      · rw [if_neg hm]
        refine .unreadable fun x hx => ?_
        cases x with
        | false => cases hx
        | true => exact hm (List.singleton_inj.mp hx)
    · next hnone hone =>
      refine .unreadable fun x hx => ?_
      cases x with
      | false => exact hnone hx
      | true => exact hone _ hx
  · rintro (h | ⟨rfl, rfl⟩)
    · unfold readMark
      split
      · exact absurd rfl (h false)
      · next m => exact if_neg fun hm : m = ['m'] => h true (congrArg (fun w => [w]) hm)
      · rfl
    · next x => cases x <;> rfl

/-- At most one word is a mark. -/
theorem length_le_of_markField {ms : List (List Char)} {marked : Bool}
    (h : MarkField ms (.ok marked)) : ms.length ≤ 1 := by
  cases h with
  | value h _ =>
    rw [h]
    split <;> simp

/-! ## Reading lines -/

/-- The two shapes of binary watches are one, with the mark read last. -/
theorem ofHead_binary {l r i : List Char} {ms : List (List Char)} (hms : ms.length ≤ 1) :
    ofHead ['b'] (l :: r :: i :: ms) = (do
      let (red, other, id) ← readBinary l r i
      let marked ← readMark ms
      return .packBinary other ⟨red, marked⟩ id) := by
  match ms with
  | [] => rfl
  | [m] =>
    show (readBinary l r i).bind _ = (readBinary l r i).bind _
    congr 1
    funext ⟨red, other, id⟩
    show (if m = ['m'] then _ else _) = (if m = ['m'] then _ else _ : Except Error Bool).bind _
    split <;> rfl

/-- A line of no shape is refused. -/
theorem ofHead_of_not_mem_shapes {head : List Char} {args : List (List Char)}
    (h : (head, args.length) ∉ shapes) : ofHead head args = malformed := by
  unfold ofHead
  split <;> first | rfl | exact absurd (by simp [shapes]) h

/-- The reader finds what a line means. -/
theorem ofWords_of_lineMeaning {ws : List (List Char)} {r : Except Error (Option Watch)}
    (h : LineMeaning ws r) : ofWords ws = r := by
  have hofHead : ∀ {head : List Char} {args : List (List Char)}, head.head? ≠ some '#' →
      ofWords (head :: args) = (ofHead head args).map some := fun hhead => if_neg hhead
  cases h with
  | empty => rfl
  | comment => rfl
  | shapeless hhead hshape =>
    rw [hofHead hhead, ofHead_of_not_mem_shapes hshape]
    rfl
  | clause ho hl hw =>
    obtain rfl := toWatch_of_fields? hw
    rw [hofHead (by decide), ofHead, readOffset_iff.mpr ho, readLiteral_iff.mpr hl]
    rfl
  | clauseOffset ho =>
    rw [hofHead (by decide), ofHead, readOffset_iff.mpr ho]
    rfl
  | clauseBlocker ho hl =>
    rw [hofHead (by decide), ofHead, readOffset_iff.mpr ho, readLiteral_iff.mpr hl]
    rfl
  | abstraction ho ha hw =>
    obtain rfl := toWatch_of_fields? hw
    rw [hofHead (by decide), ofHead, readOffset_iff.mpr ho, readWord32_iff.mpr ha]
    rfl
  | abstractionOffset ho =>
    rw [hofHead (by decide), ofHead, readOffset_iff.mpr ho]
    rfl
  | abstractionBits ho ha =>
    rw [hofHead (by decide), ofHead, readOffset_iff.mpr ho, readWord32_iff.mpr ha]
    rfl
  | binary hr hl hi hm hw =>
    obtain rfl := toWatch_of_fields? hw
    rw [hofHead (by decide), ofHead_binary (length_le_of_markField hm), readBinary,
      readDigit_iff.mpr hr, readLiteral_iff.mpr hl, readClauseId_iff.mpr hi, readMark_iff.mpr hm]
    rfl
  | binaryFlag hms hr =>
    rw [hofHead (by decide), ofHead_binary hms, readBinary, readDigit_iff.mpr hr]
    rfl
  | binaryOther hms hr hl =>
    rw [hofHead (by decide), ofHead_binary hms, readBinary, readDigit_iff.mpr hr,
      readLiteral_iff.mpr hl]
    rfl
  | binaryId hms hr hl hi =>
    rw [hofHead (by decide), ofHead_binary hms, readBinary, readDigit_iff.mpr hr,
      readLiteral_iff.mpr hl, readClauseId_iff.mpr hi]
    rfl
  | binaryMark hms hr hl hi hm =>
    rw [hofHead (by decide), ofHead_binary hms, readBinary, readDigit_iff.mpr hr,
      readLiteral_iff.mpr hl, readClauseId_iff.mpr hi, readMark_iff.mpr hm]
    rfl
  | bnn hr hi hw =>
    obtain rfl := toWatch_of_fields? hw
    rw [hofHead (by decide), ofHead, readRole_iff.mpr hr, readWord32_iff.mpr hi]
    rfl
  | bnnRole hr =>
    rw [hofHead (by decide), ofHead, readRole_iff.mpr hr]
    rfl
  | bnnIndex hr hi =>
    rw [hofHead (by decide), ofHead, readRole_iff.mpr hr, readWord32_iff.mpr hi]
    rfl
  | idx hi hw =>
    obtain rfl := toWatch_of_fields? hw
    rw [hofHead (by decide), ofHead, readWord32_iff.mpr hi]
    rfl
  | idxIndex hi =>
    rw [hofHead (by decide), ofHead, readWord32_iff.mpr hi]
    rfl

theorem exists_clause (o l : List Char) : ∃ r, LineMeaning [['c'], o, l] r := by
  cases ho : readOffset o with
  | error e => exact ⟨_, .clauseOffset (readOffset_iff.mp ho)⟩
  | ok offset =>
    have ho := readOffset_iff.mp ho
    cases hl : readLiteral l with
    | error e => exact ⟨_, .clauseBlocker ho (readLiteral_iff.mp hl)⟩
    | ok blocker => exact ⟨_, .clause ho (readLiteral_iff.mp hl) (fields?_toWatch (.clause offset blocker))⟩

theorem exists_abstraction (o a : List Char) : ∃ r, LineMeaning [['a'], o, a] r := by
  cases ho : readOffset o with
  | error e => exact ⟨_, .abstractionOffset (readOffset_iff.mp ho)⟩
  | ok offset =>
    have ho := readOffset_iff.mp ho
    cases ha : readWord32 a with
    | error e => exact ⟨_, .abstractionBits ho (readWord32_iff.mp ha)⟩
    | ok bits => exact ⟨_, .abstraction ho (readWord32_iff.mp ha)
      (fields?_toWatch (.clause offset (Abstraction.mk bits)))⟩

theorem exists_binary (l r i : List Char) {ms : List (List Char)} (hms : ms.length ≤ 1) :
    ∃ r', LineMeaning (['b'] :: l :: r :: i :: ms) r' := by
  cases hr : readDigit r with
  | error e => exact ⟨_, .binaryFlag hms (readDigit_iff.mp hr)⟩
  | ok red =>
    have hr := readDigit_iff.mp hr
    cases hl : readLiteral l with
    | error e => exact ⟨_, .binaryOther hms hr (readLiteral_iff.mp hl)⟩
    | ok other =>
      have hl := readLiteral_iff.mp hl
      cases hi : readClauseId i with
      | error e => exact ⟨_, .binaryId hms hr hl (readClauseId_iff.mp hi)⟩
      | ok id =>
        have hi := readClauseId_iff.mp hi
        cases hm : readMark ms with
        | error e => exact ⟨_, .binaryMark hms hr hl hi (readMark_iff.mp hm)⟩
        | ok marked => exact ⟨_, .binary hr hl hi (readMark_iff.mp hm)
          (fields?_toWatch (α := Abstraction) (.binary other red marked id))⟩

theorem exists_bnn (i r : List Char) : ∃ r', LineMeaning [['n'], i, r] r' := by
  cases hr : readRole r with
  | error e => exact ⟨_, .bnnRole (readRole_iff.mp hr)⟩
  | ok role =>
    have hr := readRole_iff.mp hr
    cases hi : readWord32 i with
    | error e => exact ⟨_, .bnnIndex hr (readWord32_iff.mp hi)⟩
    | ok index => exact ⟨_, .bnn hr (readWord32_iff.mp hi)
      (fields?_toWatch (α := Abstraction) (.bnn index role))⟩

theorem exists_idx (i : List Char) : ∃ r, LineMeaning [['i'], i] r := by
  cases hi : readWord32 i with
  | error e => exact ⟨_, .idxIndex (readWord32_iff.mp hi)⟩
  | ok index => exact ⟨_, .idx (readWord32_iff.mp hi) (fields?_toWatch (α := Abstraction) (.idx index))⟩

/-- Every line has a meaning: in each shape the first check that fails decides, or
none does. -/
theorem exists_lineMeaning (ws : List (List Char)) : ∃ r, LineMeaning ws r := by
  cases ws with
  | nil => exact ⟨_, .empty⟩
  | cons head args =>
    by_cases hhead : head.head? = some '#'
    · obtain ⟨cs, rfl⟩ := List.head?_eq_some_iff.mp hhead
      exact ⟨_, .comment⟩
    by_cases hshape : (head, args.length) ∈ shapes
    · simp only [shapes, List.mem_cons, Prod.mk.injEq, List.not_mem_nil, or_false] at hshape
      rcases hshape with ⟨rfl, h⟩ | ⟨rfl, h⟩ | ⟨rfl, h⟩ | ⟨rfl, h⟩ | ⟨rfl, h⟩ | ⟨rfl, h⟩
      · match args with
        | [o, l] => exact exists_clause o l
      · match args with
        | [o, a] => exact exists_abstraction o a
      · match args with
        | [l, r, i] => exact exists_binary l r i (Nat.zero_le 1)
      · match args with
        | [l, r, i, m] => exact exists_binary l r i (Nat.le_refl 1)
      · match args with
        | [i, r] => exact exists_bnn i r
      · match args with
        | [i] => exact exists_idx i
    · exact ⟨_, .shapeless hhead hshape⟩

/-- The words of a line are read as what they mean. -/
theorem ofWords_eq_iff {ws : List (List Char)} {r : Except Error (Option Watch)} :
    ofWords ws = r ↔ LineMeaning ws r := by
  refine ⟨?_, ofWords_of_lineMeaning⟩
  rintro rfl
  obtain ⟨r, h⟩ := exists_lineMeaning ws
  rwa [ofWords_of_lineMeaning h]

/-! ## Refused lines -/

/-- The errors of lines. No other one says anything about a line. -/
def isOfLine : Error → Bool
  | .offsetOverflow _ | .idOverflow _ | .invalidLiteral | .malformedLine _ => true
  | .inaccessible | .unsorted | .invalidOption _ => false

theorem isOfLine_atLine (n : Nat) (e : Error) : isOfLine (e.atLine n) = isOfLine e := by
  cases e <;> rfl

/-- A field is refused for its form, or for its range. -/
theorem Field.isOfLine {σ ν α : Type} {Denotes : σ → ν → Prop} {Value : ν → Except Error α → Prop}
    {w : σ} {e : Error} (h : Field Denotes Value w (.error e))
    (hrange : ∀ x, Value x (.error e) → isOfLine e = true) : isOfLine e = true := by
  cases h with
  | unreadable => rfl
  | value _ hr => exact hrange _ hr

/-- A line is refused with an error of lines. -/
theorem LineMeaning.isOfLine {ws : List (List Char)} {e : Error}
    (h : LineMeaning ws (.error e)) : isOfLine e = true := by
  cases h with
  | shapeless => rfl
  | clauseOffset h | abstractionOffset h | clauseBlocker _ h | binaryOther _ _ h
  | binaryId _ _ _ h | abstractionBits _ h | bnnIndex _ h | idxIndex h | binaryFlag _ h
  | bnnRole h | binaryMark _ _ _ _ h =>
    refine Field.isOfLine h fun _ hx => ?_
    cases hx <;> rfl

theorem isOfLine_of_ofLine? {line : List Char} {e : Error} (h : ofLine? line = .error e) :
    isOfLine e = true :=
  (ofWords_eq_iff.mp h).isOfLine

/-- **The grammar.** What a line is read as is what it means: the words of the line
are those between Unicode blanks, and their meaning is unique. Read with every assertion
that stands on the way, of a variable that is in range, of a payload that fits, and of a
watch that is marked and must be binary, no line fails one. -/
theorem ofLine_eq_iff_meaning :
    (∀ line r, ofLine? line = r ↔ ∃ ws, SplitsInto line ws ∧ LineMeaning ws r) ∧
    ∀ line, ofLineBits? line = some (ofLine? line) := by
  refine ⟨fun line r => ⟨?_, ?_⟩, ofLineBits?_eq⟩
  · intro h
    exact ⟨words line, words_eq_iff.mp rfl, ofWords_eq_iff.mp h⟩
  · rintro ⟨ws, hsplit, h⟩
    rw [ofLine?, words_eq_iff.mpr hsplit]
    exact ofWords_eq_iff.mpr h

/-- The literal is checked before the identifier, and the mark last. -/
example : ofLine? " b 0 1 x y".toList = .error .invalidLiteral := by decide

end WatchLists.Grammar
