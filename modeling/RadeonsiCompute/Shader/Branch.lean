import RadeonsiCompute.Shader.Format

/-!
# Branches

The four builders of branches and the displacement a branch is read to have. A
taken branch at index `b` of a program goes on at `b + 1` and the displacement.
`s_jump` takes an `int` and does not mask it, so a jump backward fills the
upper half of its word with the sign and is no longer a branch.
-/

namespace RadeonsiCompute

open Lib

namespace CodeHelper

/-- `rel` is an `int`, or'ed in whole. -/
def sJump (rel : Dword) : List Dword := [0xBF800000#32 ||| 0x2#32 <<< 16 ||| rel]

/-- The dword of a branch: `uint32_t(imm) & 0xFFFF` of an `int16_t`. -/
def branchWord (op : Dword) (imm : BitVec 16) : Dword :=
  0xBF800000#32 ||| op <<< 16 ||| (imm.signExtend 32 &&& 0xFFFF#32)

def sCbranchScc0 (imm : BitVec 16) : List Dword := [branchWord 4 imm]

def sCbranchExecz (imm : BitVec 16) : List Dword := [branchWord 8 imm]

def sBranch (imm : BitVec 16) : List Dword := [branchWord 2 imm]

end CodeHelper

/-- The displacement of a branch: its `SIMM16`, sign-extended. -/
def displacement (word : Dword) : Int := ((Sq.simm16.field.get word).setWidth 16).toInt

/-- Where the branch at index `b` goes if it is taken. -/
def branchTarget (b : Nat) (word : Dword) : Int := b + 1 + displacement word

/-- The builders of branches. -/
inductive Branch
  | sJump | sBranch | sCbranchScc0 | sCbranchExecz
  deriving DecidableEq, Repr

namespace Branch

/-- What the builder writes for the displacement `d`. `s_jump` takes an `int`, the others an
`int16_t`. -/
def dwords (c : Branch) (d : Int) : List Dword :=
  match c with
  | sJump => CodeHelper.sJump (.ofInt 32 d)
  | sBranch => CodeHelper.sBranch (.ofInt 16 d)
  | sCbranchScc0 => CodeHelper.sCbranchScc0 (.ofInt 16 d)
  | sCbranchExecz => CodeHelper.sCbranchExecz (.ofInt 16 d)

/-- The opcode the register header gives the builder's instruction. -/
def op : Branch → Dword
  | sJump => SqOp.sBranch
  | sBranch => SqOp.sBranch
  | sCbranchScc0 => SqOp.sCbranchScc0
  | sCbranchExecz => SqOp.sCbranchExecz

/-- The builder writes one `SOPP` word, with its own opcode and the displacement `d`. -/
def Exact (c : Branch) (d : Int) : Prop :=
  ∃ word, c.dwords d = [word] ∧ Sq.sopp.Marks word ∧ Sq.sopp.op.get word = c.op ∧
    displacement word = d

end Branch

/-! ## The fields of a branch -/

section Fields

variable {op : Dword} {imm : BitVec 16}

/-- Sign extension and the mask leave the 16 bits as they are. -/
theorem signExtend_and_mask : imm.signExtend 32 &&& 0xFFFF#32 = imm.setWidth 32 := by
  apply BitVec.eq_of_toNat_eq
  have mask : (0xFFFF#32).toNat = 2 ^ 16 - 1 := by decide
  have low : imm.toNat < 2 ^ 32 := Nat.lt_trans imm.isLt (by decide)
  rw [BitVec.toNat_and, mask, Nat.and_two_pow_sub_one_eq_mod, BitVec.toNat_setWidth,
    Nat.mod_eq_of_lt low, BitVec.toNat_signExtend, BitVec.toNat_setWidth, Nat.mod_eq_of_lt low]
  have bound := imm.isLt
  split
  · omega
  · omega

theorem simm16_fits (op : Dword) (imm : BitVec 16) :
    Slot.Fits (Sq.sopp.slots op) [imm.setWidth 32] := by
  refine .cons ?_ .nil
  show Sq.simm16.field.Holds (imm.setWidth 32)
  rw [Field.holds_iff_lt (n := 16) (by decide), BitVec.toNat_setWidth,
    Nat.mod_eq_of_lt (Nat.lt_trans imm.isLt (by decide))]
  exact imm.isLt

/-- A branch with an `int16_t` is the word the format packs. -/
theorem branchWord_eq (holds : Sq.sopp.op.Holds op) :
    CodeHelper.branchWord op imm = Sq.sopp.firstWord op [imm.setWidth 32] := by
  rw [Format.firstWord_eq (simm16_fits op imm) holds, CodeHelper.branchWord, signExtend_and_mask]
  show _ = 0xBF800000#32 ||| (op <<< 16 ||| (imm.setWidth 32 <<< 0 ||| 0#32))
  rw [BitVec.shiftLeft_zero, BitVec.or_zero, BitVec.or_assoc]

theorem marks_branchWord (holds : Sq.sopp.op.Holds op) :
    Sq.sopp.Marks (CodeHelper.branchWord op imm) := by
  rw [branchWord_eq holds]
  exact Format.marks_firstWord (simm16_fits op imm)

theorem op_branchWord (holds : Sq.sopp.op.Holds op) :
    Sq.sopp.op.get (CodeHelper.branchWord op imm) = op := by
  rw [branchWord_eq holds]
  exact Format.op_firstWord (simm16_fits op imm) holds

/-- The displacement of a branch with an `int16_t` is its value. -/
theorem displacement_branchWord (holds : Sq.sopp.op.Holds op) :
    displacement (CodeHelper.branchWord op imm) = imm.toInt := by
  have read := Format.read_firstWord (f := Sq.sopp) (simm16_fits op imm)
  have field : Sq.simm16.field.get (CodeHelper.branchWord op imm) = imm.setWidth 32 := by
    rw [branchWord_eq holds]
    exact (List.cons.inj read).1
  rw [displacement, field, BitVec.setWidth_setWidth_of_le imm (by decide), BitVec.setWidth_eq]

end Fields

/-! ## Displacements of 16 bits -/

section Displacement

variable {d : Int}

theorem toInt_ofInt_16 (low : -32768 ≤ d) (high : d < 32768) :
    (BitVec.ofInt 16 d).toInt = d := by
  rw [BitVec.toInt_ofInt]
  exact Int.bmod_eq_of_le low high

/-- The narrowing to `int16_t` moves a displacement by a multiple of 65536. -/
theorem toInt_ofInt_16_emod : (BitVec.ofInt 16 d).toInt % 65536 = d % 65536 := by
  rw [BitVec.toInt_ofInt]
  exact Int.bmod_emod

/-- Going forward, `s_jump` and `s_branch` are one. -/
theorem sJump_eq_sBranch (low : 0 ≤ d) (high : d < 32768) :
    Branch.sJump.dwords d = Branch.sBranch.dwords d := by
  have jump : BitVec.ofInt 32 d = (BitVec.ofInt 16 d).setWidth 32 := by
    apply BitVec.eq_of_toNat_eq
    rw [BitVec.toNat_ofInt, BitVec.toNat_setWidth, BitVec.toNat_ofInt]
    omega
  show [0xBF800000#32 ||| 0x2#32 <<< 16 ||| BitVec.ofInt 32 d] =
    [0xBF800000#32 ||| 0x2#32 <<< 16 ||| ((BitVec.ofInt 16 d).signExtend 32 &&& 0xFFFF#32)]
  rw [signExtend_and_mask, jump]

/-- Going backward, the sign of a jump sets every bit above the displacement. -/
theorem sJump_backward (low : -32768 ≤ d) (high : d < 0) {word : Dword}
    (written : Branch.sJump.dwords d = [word]) : ¬ Sq.sopp.Marks word := by
  obtain rfl := List.cons.inj written |>.1
  intro marks
  have bit : ((0xBF800000#32 ||| 0x2#32 <<< 16 ||| BitVec.ofInt 32 d).getLsbD 30) = true := by
    have sign : (BitVec.ofInt 32 d).getLsbD 30 = true := by
      rw [← BitVec.testBit_toNat, BitVec.toNat_ofInt, Nat.testBit_eq_decide_div_mod_eq]
      have value : (d % ((2 ^ 32 : Nat) : Int)).toNat = (d + 4294967296).toNat := by omega
      have quotient : (d + 4294967296).toNat / 2 ^ 30 % 2 = 1 := by omega
      rw [value, quotient]
      rfl
    rw [BitVec.getLsbD_or, sign, Bool.or_true]
  have clear := congrArg (fun x => x.getLsbD 7) marks
  simp only [Sq.sopp, Field.get, Field.of, BitVec.getLsbD_and, BitVec.getLsbD_ushiftRight] at clear
  rw [bit] at clear
  exact absurd clear (by decide)

end Displacement

namespace Branch

theorem op_holds (c : Branch) : Sq.sopp.op.Holds c.op := by
  cases c <;> decide

/-- All but `s_jump` write the word of an `int16_t`. -/
theorem dwords_eq {c : Branch} (other : c ≠ sJump) (d : Int) :
    c.dwords d = [CodeHelper.branchWord c.op (.ofInt 16 d)] := by
  cases c with
  | sJump => exact absurd rfl other
  | sBranch => rfl
  | sCbranchScc0 => rfl
  | sCbranchExecz => rfl

theorem exact_of_ne {c : Branch} {d : Int} (other : c ≠ sJump) (low : -32768 ≤ d)
    (high : d < 32768) : c.Exact d := by
  refine ⟨_, dwords_eq other d, marks_branchWord c.op_holds, op_branchWord c.op_holds, ?_⟩
  rw [displacement_branchWord c.op_holds, toInt_ofInt_16 low high]

theorem sJump_exact_iff {d : Int} (low : -32768 ≤ d) (high : d < 32768) :
    sJump.Exact d ↔ 0 ≤ d := by
  constructor
  · rintro ⟨word, written, marks, -, -⟩
    by_contra backward
    exact sJump_backward low (by omega) written marks
  · intro forward
    obtain ⟨word, written, fields⟩ := exact_of_ne (c := sBranch) (by decide) low high
    exact ⟨word, (sJump_eq_sBranch forward high).trans written, fields⟩

theorem sJump_eq_sBranch_iff {d : Int} (low : -32768 ≤ d) (high : d < 32768) :
    sJump.dwords d = sBranch.dwords d ↔ 0 ≤ d := by
  constructor
  · intro same
    obtain ⟨word, written, fields⟩ := exact_of_ne (c := sBranch) (by decide) low high
    exact (sJump_exact_iff low high).mp ⟨word, same.trans written, fields⟩
  · exact fun forward => sJump_eq_sBranch forward high

end Branch

/-- When a branch is read back, and when the two builders of `S_BRANCH` agree. -/
theorem branch_exact_iff (d : Int) (low : -32768 ≤ d) (high : d < 32768) :
    (∀ c : Branch, c.Exact d ↔ c ≠ .sJump ∨ 0 ≤ d) ∧
      (Branch.sJump.dwords d = Branch.sBranch.dwords d ↔ 0 ≤ d) := by
  refine ⟨fun c => ?_, Branch.sJump_eq_sBranch_iff low high⟩
  by_cases jump : c = .sJump
  · subst jump
    rw [Branch.sJump_exact_iff low high]
    exact ⟨.inr, fun either => either.resolve_left (absurd rfl)⟩
  · exact iff_of_true (Branch.exact_of_ne jump low high) (.inl jump)

/-- A branch to itself. -/
theorem branch_exact_iff_self :
    (∀ c : Branch, c.Exact (-1) ↔ c ≠ .sJump ∨ 0 ≤ (-1 : Int)) ∧
      (Branch.sJump.dwords (-1) = Branch.sBranch.dwords (-1) ↔ 0 ≤ (-1 : Int)) :=
  branch_exact_iff (-1) (by decide) (by decide)

/-- `s_jump` to itself writes the dword 0xFFFFFFFF. -/
theorem sJump_self_lost : ¬ ((∀ d : Int, -32768 ≤ d → d < 32768 → ∀ c : Branch, c.Exact d) ∧
    ∀ d : Int, -32768 ≤ d → d < 32768 → Branch.sJump.dwords d = Branch.sBranch.dwords d) := by
  rintro ⟨-, same⟩
  exact absurd (same (-1) (by decide) (by decide)) (by decide)

end RadeonsiCompute
