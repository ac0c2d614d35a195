import WatchLists.Proofs.Literal.Encodings
import WatchLists.Proofs.Text.Numerals
import WatchLists.Proofs.Watch.Asserted
import WatchLists.Watch.Line

/-!
# Reading a line with every assertion

A line that is read is checked word by word, and then trusted: a literal is made of an
integer whose range was looked at, a watch is packed from numbers that fit, and a mark
is set on a watch that was just made as a binary one. On a machine each of these steps
asserts what it trusts. Here the reader is written with these steps, in the order in
which they are taken, and a line on which an assertion fails is read as nothing at all.

- `Asserted`: what may be refused, or fail an assertion.
- `Watch.readLiteralBits?`, `ofHeadBits?`, `ofLineBits?`: the reader.
- `ofLineBits?_eq`: no line fails an assertion, and each is read as by the reader without
  them.
-/

namespace WatchLists

/-- What may be refused with an error, and is nothing if an assertion fails. -/
abbrev Asserted := ExceptT Error Option

namespace Asserted

variable {α β : Type}

/-- What asserts nothing. -/
def plain (r : Except Error α) : Asserted α := ExceptT.mk (some r)

/-- A step that asserts something, and refuses nothing. -/
def step (x? : Option α) : Asserted α := ExceptT.mk (x?.map .ok)

theorem step_some (x : α) : step (some x) = plain (.ok x) := rfl

/-- A sequence asserts nothing if none of its parts does. -/
theorem plain_bind {f' : α → Asserted β} {f : α → Except Error β}
    (h : ∀ a, f' a = plain (f a)) (r : Except Error α) : plain r >>= f' = plain (r >>= f) := by
  cases r with
  | error e => rfl
  | ok a => exact h a

end Asserted

namespace Watch

open Asserted

/-! ## The reader -/

/-- A change of a watch, which is asserted to be of the kind that has the field. -/
def changeBits? (c : Change) (w : Watch) : Option Watch :=
  if w.isKind c.kind then c.applyBits? w else none

/-- Reads a literal, as a word of 64 bits. -/
def readLiteralBits? (word : List Char) : Asserted Literal :=
  match Numeral.readInt64? word with
  | some x => ExceptT.mk (Literal.ofDimacsBits? (BitVec.ofInt 64 x))
  | none => plain malformed

/-- Reads a binary watch without a mark. -/
def ofBinaryBits? (l r i : List Char) : Asserted Watch := do
  let red ← plain (readDigit r)
  let other ← readLiteralBits? l
  let id ← plain (readClauseId i)
  step (View.binary other red false id : View Abstraction).packBits?

/-- Reads a watch from the first word of a line and the words after it. A mark is set on
the watch that the words before it make. -/
def ofHeadBits? : List Char → List (List Char) → Asserted Watch
  | ['c'], [o, l] => do
    let offset ← plain (readOffset o)
    let blocker ← readLiteralBits? l
    step (View.clause offset blocker).stored.packBits?
  | ['a'], [o, a] => do
    let offset ← plain (readOffset o)
    let bits ← plain (readWord32 a)
    step (View.clause offset (Abstraction.mk bits)).packBits?
  | ['b'], [l, r, i] => ofBinaryBits? l r i
  | ['b'], [l, r, i, m] => do
    let w ← ofBinaryBits? l r i
    if m = ['m'] then step (w.changeBits? .mark) else plain malformed
  | ['n'], [i, r] => do
    let role ← plain (readRole r)
    let index ← plain (readWord32 i)
    step (View.bnn index role : View Abstraction).packBits?
  | ['i'], [i] => do
    let index ← plain (readWord32 i)
    step (View.idx index : View Abstraction).packBits?
  | _, _ => plain malformed

/-- Reads the words of a line. -/
def ofWordsBits? : List (List Char) → Asserted (Option Watch)
  | [] => return none
  | head :: args =>
    if head.head? = some '#' then return none else return some (← ofHeadBits? head args)

/-- Reads a line; there is no answer if an assertion fails. -/
def ofLineBits? (line : List Char) : Option (Except Error (Option Watch)) :=
  (ofWordsBits? (Text.words line)).run

/-! ## No assertion fails -/

/-- A numeral that is read as an integer of 64 bits is one. -/
theorem toInt_of_readInt64? {word : List Char} {x : Int} (h : Numeral.readInt64? word = some x) :
    (BitVec.ofInt 64 x).toInt = x := by
  have hrange : -9223372036854775808 ≤ x ∧ x < 9223372036854775808 := by
    cases Numeral.readInt64?_eq_some_iff.mp h with
    | @nonneg _ n _ =>
      have := n.isLt
      omega
    | neg _ hn => omega
  exact BitVec.toInt_ofInt_eq_self (by decide) hrange.1 hrange.2

theorem readLiteralBits?_eq (word : List Char) :
    readLiteralBits? word = plain (readLiteral word) := by
  unfold readLiteralBits? readLiteral
  cases h : Numeral.readInt64? word with
  | none => rfl
  | some x =>
    dsimp only
    rw [Literal.ofDimacsBits?_eq, toInt_of_readInt64? h]
    rfl

/-- A binary watch can be marked. -/
theorem changeBits?_mark (l : Literal) (r : Bool) (i : ClauseId) :
    (packBinary l ⟨r, false⟩ i).changeBits? .mark = some (packBinary l ⟨r, true⟩ i) := by
  have hkind : (packBinary l ⟨r, false⟩ i).isKind (Change.kind .mark) = true :=
    decide_eq_true (kind_pack ..)
  rw [changeBits?, if_pos hkind]
  exact applyBits?_of_apply (apply_toWatch .mark (.binary l r false i))

theorem ofBinaryBits?_eq (l r i : List Char) :
    ofBinaryBits? l r i = plain (do
      let (red, other, id) ← readBinary l r i
      return packBinary other ⟨red, false⟩ id) := by
  unfold ofBinaryBits? readBinary
  rw [readLiteralBits?_eq]
  simp only [View.packBits?_eq, step_some, bind_assoc, pure_bind]
  exact plain_bind (fun red => plain_bind (fun other => plain_bind (fun id => rfl) _) _) _

theorem ofHeadBits?_eq (head : List Char) (args : List (List Char)) :
    ofHeadBits? head args = plain (ofHead head args) := by
  unfold ofHeadBits?
  split
  · rw [readLiteralBits?_eq, ofHead]
    simp only [View.packBits?_eq, View.toWatch_stored, step_some]
    exact plain_bind (fun offset => plain_bind (fun blocker => rfl) _) _
  · rw [ofHead]
    simp only [View.packBits?_eq, step_some]
    exact plain_bind (fun offset => plain_bind (fun bits => rfl) _) _
  · exact ofBinaryBits?_eq _ _ _
  · next l r i m =>
    rw [ofBinaryBits?_eq, ofHead]
    cases readBinary l r i with
    | error e => rfl
    | ok fields =>
      obtain ⟨red, other, id⟩ := fields
      show (if m = ['m'] then step ((packBinary other ⟨red, false⟩ id).changeBits? .mark)
        else plain malformed) = plain (if m = ['m'] then _ else malformed)
      rw [changeBits?_mark]
      split <;> rfl
  · rw [ofHead]
    simp only [View.packBits?_eq, step_some]
    exact plain_bind (fun role => plain_bind (fun index => rfl) _) _
  · rw [ofHead]
    simp only [View.packBits?_eq, step_some]
    exact plain_bind (fun index => rfl) _
  · rw [ofHead] <;> assumption

/-- **No line fails an assertion**, whatever the words of it: it is refused, or read, as the
model says. -/
theorem ofLineBits?_eq (line : List Char) : ofLineBits? line = some (ofLine? line) := by
  unfold ofLineBits? ofLine?
  cases Text.words line with
  | nil => rfl
  | cons head args =>
    rw [ofWordsBits?, ofWords, ofHeadBits?_eq]
    split
    · rfl
    · cases ofHead head args <;> rfl

end Watch

end WatchLists
