import RadeonsiCompute.Shader.Format

/-!
# The compares of vectors

The four builders of `VOPC` words are copies of one another. Three of them put
the second source one bit below where the register header has it, so its lowest
bit falls into the first source and the rest is read shifted down. Their words
are right when the second source is register 0, and only then.
-/

namespace RadeonsiCompute

open Lib

namespace CodeHelper

/-- The dword with the prefix 0x7C000000, the second source `shift` bits up. -/
def compareWord (shift : Nat) (op vsrc1 src0 : Dword) : Dword :=
  0x7C000000#32 ||| src0 <<< 0 ||| vsrc1 <<< shift ||| op <<< 17

def vCmpLtF32 (vsrc1 src0 : Dword) : List Dword := [compareWord 8 0x01 vsrc1 src0]

def vCmpxLtF32 (vsrc1 src0 : Dword) : List Dword := [compareWord 8 0x11 vsrc1 src0]

def vCmpGtF32 (vsrc1 src0 : Dword) : List Dword := [compareWord 8 0x04 vsrc1 src0]

/-- The only one of the four with the shift of the register header. -/
def vCmpxGtF32 (vsrc1 src0 : Dword) : List Dword := [compareWord 9 0x14 vsrc1 src0]

end CodeHelper

/-- The builders of compares. -/
inductive Compare
  | vCmpLtF32 | vCmpxLtF32 | vCmpGtF32 | vCmpxGtF32
  deriving DecidableEq, Repr

namespace Compare

/-- What the builder writes. -/
def dwords (c : Compare) (vsrc1 src0 : Dword) : List Dword :=
  match c with
  | vCmpLtF32 => CodeHelper.vCmpLtF32 vsrc1 src0
  | vCmpxLtF32 => CodeHelper.vCmpxLtF32 vsrc1 src0
  | vCmpGtF32 => CodeHelper.vCmpGtF32 vsrc1 src0
  | vCmpxGtF32 => CodeHelper.vCmpxGtF32 vsrc1 src0

/-- The opcode the register header gives the builder's instruction. -/
def op : Compare → Dword
  | vCmpLtF32 => SqOp.vCmpLtF32
  | vCmpxLtF32 => SqOp.vCmpxLtF32
  | vCmpGtF32 => SqOp.vCmpGtF32
  | vCmpxGtF32 => SqOp.vCmpxGtF32

def shift : Compare → Nat
  | vCmpxGtF32 => 9
  | _ => 8

/-- The word the builder writes. -/
def word (c : Compare) (vsrc1 src0 : Dword) : Dword :=
  CodeHelper.compareWord c.shift c.op vsrc1 src0

theorem dwords_eq (c : Compare) (vsrc1 src0 : Dword) :
    c.dwords vsrc1 src0 = [c.word vsrc1 src0] := by
  cases c <;> rfl

theorem op_holds (c : Compare) : Sq.vopc.op.Holds c.op := by
  cases c <;> decide

theorem shift_cases (c : Compare) :
    c = vCmpxGtF32 ∧ c.shift = 9 ∨ c ≠ vCmpxGtF32 ∧ c.shift = 8 := by
  cases c <;> decide

/-- The builder writes one `VOPC` word, with its own opcode and just these sources. -/
def Exact (c : Compare) (vsrc1 src0 : Dword) : Prop :=
  ∃ word, c.dwords vsrc1 src0 = [word] ∧ Sq.vopc.Marks word ∧ Sq.vopc.op.get word = c.op ∧
    Slot.read (Sq.vopc.slots c.op) word = [vsrc1, src0]

/-- Two builders write one word each, and these differ in the opcode at most. -/
def AlikeButOp (c d : Compare) (vsrc1 src0 : Dword) : Prop :=
  ∃ left right, c.dwords vsrc1 src0 = [left] ∧ d.dwords vsrc1 src0 = [right] ∧
    left &&& ~~~Sq.vopc.op.cells = right &&& ~~~Sq.vopc.op.cells

end Compare

/-! ## The fields of a compare -/

section Fields

variable {op vsrc1 src0 : Dword}

theorem vopc_fits (op : Dword) (low : src0.toNat < 512) (high : vsrc1.toNat < 256) :
    Slot.Fits (Sq.vopc.slots op) [vsrc1, src0] := by
  refine .cons ?_ (.cons ?_ .nil)
  · exact (Field.holds_iff_lt (n := 8) (by decide)).mpr high
  · exact (Field.holds_iff_lt (n := 9) (by decide)).mpr low

/-- With the header's shift it is the word the format packs. -/
theorem compareWord_nine (holds : Sq.vopc.op.Holds op)
    (fits : Slot.Fits (Sq.vopc.slots op) [vsrc1, src0]) :
    CodeHelper.compareWord 9 op vsrc1 src0 = Sq.vopc.firstWord op [vsrc1, src0] := by
  rw [Format.firstWord_eq fits holds]
  show CodeHelper.compareWord 9 op vsrc1 src0 =
    0x7C000000#32 ||| (op <<< 17 ||| (vsrc1 <<< 9 ||| (src0 <<< 0 ||| 0#32)))
  simp only [CodeHelper.compareWord, BitVec.zero_or, BitVec.or_assoc, BitVec.or_comm]

/-- The second source is read off a word as it was shifted there. -/
theorem get_vsrc1_compareWord (shift : Nat) (holds : Sq.vopc.op.Holds op)
    (low : src0.toNat < 512) :
    Sq.vsrc1.field.get (CodeHelper.compareWord shift op vsrc1 src0) =
      Sq.vsrc1.field.get (vsrc1 <<< shift) := by
  have source : Sq.src0.field.Holds src0 := (Field.holds_iff_lt (n := 9) (by decide)).mpr low
  have mark : Sq.vsrc1.field.get 0x7C000000#32 = 0#32 := by decide
  have first : Sq.vsrc1.field.get (src0 <<< 0) = 0#32 :=
    Field.get_shift_of_apart (g := Sq.src0.field) (by decide) source
  have code : Sq.vsrc1.field.get (op <<< 17) = 0#32 :=
    Field.get_shift_of_apart (g := Sq.vopc.op) (by decide) holds
  rw [CodeHelper.compareWord, Field.get_or, Field.get_or, Field.get_or, mark, first, code,
    BitVec.or_zero, BitVec.zero_or, BitVec.zero_or]

theorem get_vsrc1_shift_nine (high : vsrc1.toNat < 256) :
    Sq.vsrc1.field.get (vsrc1 <<< 9) = vsrc1 := by
  have holds : Sq.vsrc1.field.Holds vsrc1 := (Field.holds_iff_lt (n := 8) (by decide)).mpr high
  exact Field.get_shift holds

/-- One bit too low, only half of it is read. -/
theorem get_vsrc1_shift_eight (high : vsrc1.toNat < 256) :
    (Sq.vsrc1.field.get (vsrc1 <<< 8)).toNat = vsrc1.toNat / 2 := by
  have ones : Sq.vsrc1.field.mask.toNat = 2 ^ 8 - 1 := by decide
  show ((vsrc1 <<< 8) >>> 9 &&& Sq.vsrc1.field.mask).toNat = _
  rw [Field.toNat_and_mask ones, BitVec.toNat_ushiftRight, BitVec.toNat_shiftLeft,
    Nat.shiftRight_eq_div_pow, Nat.shiftLeft_eq]
  omega

/-- Register 0 is shifted to the same place by every shift. -/
theorem compareWord_zero (shift : Nat) :
    CodeHelper.compareWord shift op 0#32 src0 = CodeHelper.compareWord 9 op 0#32 src0 := by
  simp only [CodeHelper.compareWord, BitVec.zero_shiftLeft]

/-- Words with one shift differ in the opcode at most. -/
theorem compareWord_and_not_op (shift : Nat) (holds : Sq.vopc.op.Holds op) :
    CodeHelper.compareWord shift op vsrc1 src0 &&& ~~~Sq.vopc.op.cells =
      (0x7C000000#32 ||| src0 <<< 0 ||| vsrc1 <<< shift) &&& ~~~Sq.vopc.op.cells := by
  have gone : op <<< 17 &&& ~~~Sq.vopc.op.cells = 0#32 :=
    Field.shift_and_not_cells (f := Sq.vopc.op) holds
  rw [CodeHelper.compareWord, BitVec.and_or_distrib_right, gone, BitVec.or_zero]

/-- The second source does not depend on the bits of the opcode. -/
theorem get_vsrc1_of_alike {left right : Dword}
    (alike : left &&& ~~~Sq.vopc.op.cells = right &&& ~~~Sq.vopc.op.cells) :
    Sq.vsrc1.field.get left = Sq.vsrc1.field.get right := by
  have through (x : Dword) : Sq.vsrc1.field.set (Sq.vsrc1.field.get x) =
      x &&& ~~~Sq.vopc.op.cells &&& Sq.vsrc1.field.cells := by
    have inside : ~~~Sq.vopc.op.cells &&& Sq.vsrc1.field.cells = Sq.vsrc1.field.cells := by decide
    rw [Field.set_get, BitVec.and_assoc, inside]
  have same : Sq.vsrc1.field.set (Sq.vsrc1.field.get left) =
      Sq.vsrc1.field.set (Sq.vsrc1.field.get right) := by
    rw [through, through, alike]
  have back := congrArg Sq.vsrc1.field.get same
  rwa [Field.get_set_of_holds (Field.holds_get left),
    Field.get_set_of_holds (Field.holds_get right)] at back

end Fields

namespace Compare

variable {c d : Compare} {vsrc1 src0 : Dword}

theorem exact_iff_word : c.Exact vsrc1 src0 ↔ Sq.vopc.Marks (c.word vsrc1 src0) ∧
    Sq.vopc.op.get (c.word vsrc1 src0) = c.op ∧
      Slot.read (Sq.vopc.slots c.op) (c.word vsrc1 src0) = [vsrc1, src0] := by
  constructor
  · rintro ⟨word, written, fields⟩
    rw [dwords_eq] at written
    obtain rfl := List.cons.inj written |>.1
    exact fields
  · exact fun fields => ⟨_, c.dwords_eq vsrc1 src0, fields⟩

/-- A word of the header's shift is read back. -/
theorem exact_of_nine (low : src0.toNat < 512) (high : vsrc1.toNat < 256)
    (nine : c.word vsrc1 src0 = CodeHelper.compareWord 9 c.op vsrc1 src0) :
    c.Exact vsrc1 src0 := by
  have fits := vopc_fits c.op low high
  rw [exact_iff_word, nine, compareWord_nine c.op_holds fits]
  exact ⟨Format.marks_firstWord fits, Format.op_firstWord fits c.op_holds,
    Format.read_firstWord fits⟩

theorem get_vsrc1_word (low : src0.toNat < 512) (high : vsrc1.toNat < 256) :
    (Sq.vsrc1.field.get (c.word vsrc1 src0)).toNat =
      if c = vCmpxGtF32 then vsrc1.toNat else vsrc1.toNat / 2 := by
  rw [word, get_vsrc1_compareWord c.shift c.op_holds low]
  cases c.shift_cases with
  | inl nine => rw [nine.2, if_pos nine.1, get_vsrc1_shift_nine high]
  | inr eight => rw [eight.2, if_neg eight.1, get_vsrc1_shift_eight high]

/-- A compare is read back if its builder has the right shift, or if nothing is shifted. -/
theorem exact_iff (low : src0.toNat < 512) (high : vsrc1.toNat < 256) :
    c.Exact vsrc1 src0 ↔ c = vCmpxGtF32 ∨ vsrc1 = 0#32 := by
  constructor
  · intro exact
    by_cases right : c = vCmpxGtF32
    · exact .inl right
    · refine .inr (BitVec.eq_of_toNat_eq ?_)
      have read : Sq.vsrc1.field.get (c.word vsrc1 src0) = vsrc1 :=
        (List.cons.inj (exact_iff_word.mp exact).2.2).1
      have half := get_vsrc1_word (c := c) low high
      rw [read, if_neg right] at half
      show vsrc1.toNat = 0
      omega
  · intro right
    apply exact_of_nine low high
    cases right with
    | inl right =>
        subst right
        rfl
    | inr zero =>
        subst zero
        exact compareWord_zero c.shift

theorem alike_iff_word : AlikeButOp c d vsrc1 src0 ↔
    c.word vsrc1 src0 &&& ~~~Sq.vopc.op.cells = d.word vsrc1 src0 &&& ~~~Sq.vopc.op.cells := by
  constructor
  · rintro ⟨left, right, hleft, hright, same⟩
    rw [dwords_eq] at hleft hright
    obtain rfl := List.cons.inj hleft |>.1
    obtain rfl := List.cons.inj hright |>.1
    exact same
  · exact fun same => ⟨_, _, c.dwords_eq vsrc1 src0, d.dwords_eq vsrc1 src0, same⟩

theorem shift_eq_iff : c.shift = d.shift ↔ (c = vCmpxGtF32 ↔ d = vCmpxGtF32) := by
  cases c <;> cases d <;> decide

/-- Two compares differ in the opcode alone if they shift by the same, or shift nothing. -/
theorem alikeButOp_iff (low : src0.toNat < 512) (high : vsrc1.toNat < 256) :
    AlikeButOp c d vsrc1 src0 ↔ (c = vCmpxGtF32 ↔ d = vCmpxGtF32) ∨ vsrc1 = 0#32 := by
  rw [alike_iff_word, ← shift_eq_iff]
  constructor
  · intro same
    have read := congrArg BitVec.toNat (get_vsrc1_of_alike same)
    rw [get_vsrc1_word low high, get_vsrc1_word low high] at read
    by_cases shifts : c.shift = d.shift
    · exact .inl shifts
    · refine .inr (BitVec.eq_of_toNat_eq ?_)
      rw [shift_eq_iff] at shifts
      show vsrc1.toNat = 0
      by_cases left : c = vCmpxGtF32
      · have right : d ≠ vCmpxGtF32 := fun right => shifts (iff_of_true left right)
        rw [if_pos left, if_neg right] at read
        omega
      · have right : d = vCmpxGtF32 := by_contra fun right => shifts (iff_of_false left right)
        rw [if_neg left, if_pos right] at read
        omega
  · intro right
    rw [word, word, compareWord_and_not_op _ c.op_holds, compareWord_and_not_op _ d.op_holds]
    cases right with
    | inl shifts => rw [shifts]
    | inr zero => rw [zero, BitVec.zero_shiftLeft, BitVec.zero_shiftLeft]

end Compare

/-- When a compare is read back, and when two compares of the same operands differ in the
opcode alone. -/
theorem vopc_exact_iff (vsrc1 src0 : Dword) (low : src0.toNat < 512) (high : vsrc1.toNat < 256) :
    (∀ c : Compare, c.Exact vsrc1 src0 ↔ c = .vCmpxGtF32 ∨ vsrc1 = 0#32) ∧
    ∀ c d : Compare, c.AlikeButOp d vsrc1 src0 ↔
      (c = .vCmpxGtF32 ↔ d = .vCmpxGtF32) ∨ vsrc1 = 0#32 :=
  ⟨fun _ => Compare.exact_iff low high, fun _ _ => Compare.alikeButOp_iff low high⟩

/-- Comparing `v1` with `v2`, all but `v_cmpx_gt_f32` compare other registers. -/
theorem vopc_exact_iff_v1_v2 :
    (∀ c : Compare, c.Exact 1#32 258#32 ↔ c = .vCmpxGtF32 ∨ 1#32 = 0#32) ∧
    ∀ c d : Compare, c.AlikeButOp d 1#32 258#32 ↔
      (c = .vCmpxGtF32 ↔ d = .vCmpxGtF32) ∨ 1#32 = 0#32 :=
  vopc_exact_iff 1#32 258#32 (by decide) (by decide)

/-- `v_cmp_lt_f32` of `s0` with `v1` is read as one of `v0` with `v0`. -/
theorem vCmpLtF32_misread : ¬ ∀ (c : Compare) (vsrc1 src0 : Dword), src0.toNat < 512 →
    vsrc1.toNat < 256 → c.Exact vsrc1 src0 := by
  intro all
  obtain ⟨word, written, -, -, read⟩ := all .vCmpLtF32 1#32 0#32 (by decide) (by decide)
  obtain rfl := List.cons.inj written |>.1
  exact absurd read (by decide)

end RadeonsiCompute
