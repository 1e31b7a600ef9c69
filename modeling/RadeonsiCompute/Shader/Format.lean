import RadeonsiCompute.Lib.Encoding
import RadeonsiCompute.Cs.Packet

/-!
# The shader instruction formats

The `SQ_*` formats of the SI register header: where each keeps its `ENCODING`,
its `OP` and its operands. The formats with the longer encodings are tried
first, since `SOP2` and `VOP2` leave the bits of theirs to opcodes.
-/

namespace RadeonsiCompute

open Lib

inductive SqFormat
  | sopp | sopc | sop1 | vop1 | vopc | mtbuf | mubuf | vop3 | vintrp | ds | mimg | exp
  | smrd | sopk | sop2 | vop2
  deriving DecidableEq, Repr

/-! ## Opcodes -/

namespace SqOp

def sNop : Dword := 0x00

def sEndpgm : Dword := 0x01

def sBranch : Dword := 0x02

def sCbranchScc0 : Dword := 0x04

def sCbranchExecz : Dword := 0x08

def sWaitcnt : Dword := 0x0C

def sSleep : Dword := 0x0E

def sTrap : Dword := 0x12

def sCmpGtI32 : Dword := 0x02

def sCmpLtI32 : Dword := 0x04

def sMovB32 : Dword := 0x03

def sMovB64 : Dword := 0x04

def sGetpcB64 : Dword := 0x1F

def sSwappcB64 : Dword := 0x21

def sRfeB64 : Dword := 0x22

def sGetregB32 : Dword := 0x12

def sAddI32 : Dword := 0x02

def sAndB32 : Dword := 0x0E

def sAndB64 : Dword := 0x0F

def sLoadDword : Dword := 0x00

def sMemtime : Dword := 0x1E

def vMovB32 : Dword := 0x01

def vCvtF32I32 : Dword := 0x05

def vCvtI32F32 : Dword := 0x08

def vLogF32 : Dword := 0x27

def vRcpF32 : Dword := 0x2A

def vRcpF64 : Dword := 0x2F

def vSqrtF32 : Dword := 0x33

def vSqrtF64 : Dword := 0x34

def vSinF32 : Dword := 0x35

def vBfrevB32 : Dword := 0x38

def vAddF32 : Dword := 0x03

def vSubF32 : Dword := 0x04

def vMulF32 : Dword := 0x08

def vMulI32I24 : Dword := 0x09

def vAndB32 : Dword := 0x1B

def vAddI32 : Dword := 0x25

def vCmpLtF32 : Dword := 0x01

def vCmpGtF32 : Dword := 0x04

def vCmpxLtF32 : Dword := 0x11

def vCmpxGtF32 : Dword := 0x14

def vFmaF32 : Dword := 0x14B

def vMulLoI32 : Dword := 0x16B

def vMulHiI32 : Dword := 0x16C

end SqOp

namespace Sq

def operand (off : Nat) (mask : Dword) : Slot 32 := { field := .of off mask, source := false }

def source (off : Nat) (mask : Dword) : Slot 32 := { field := .of off mask, source := true }

/-! ## Operands several formats share -/

def ssrc0 : Slot 32 := source 0 0xFF

def ssrc1 : Slot 32 := source 8 0xFF

def sdst : Slot 32 := operand 16 0x7F

def simm16 : Slot 32 := operand 0 0xFFFF

def src0 : Slot 32 := source 0 0x1FF

def vsrc1 : Slot 32 := operand 9 0xFF

def vdst : Slot 32 := operand 17 0xFF

/-- `OFFSET`, `OFFEN`, `IDXEN`, `GLC` and `ADDR64`. -/
def bufferSlots : List (Slot 32) :=
  [operand 0 0xFFF, operand 12 0x1, operand 13 0x1, operand 14 0x1, operand 15 0x1]

/-- `VADDR`, `VDATA`, `SRSRC`, `SLC`, `TFE` and `SOFFSET`. -/
def bufferMore : List (Slot 32) :=
  [operand 0 0xFF, operand 8 0xFF, operand 16 0x1F, operand 22 0x1, operand 23 0x1,
    operand 24 0xFF]

/-- `SRC0`, `SRC1`, `SRC2`, `OMOD` and `NEG`. -/
def vop3More : List (Slot 32) :=
  [source 0 0x1FF, source 9 0x1FF, source 18 0x1FF, operand 27 0x03, operand 29 0x07]

/-! ## Formats -/

def sopp : Format 32 where
  mark := .of 23 0x1FF
  code := 0x17F
  op := .of 16 0x7F
  slots _ := [simm16]

def sopc : Format 32 where
  mark := .of 23 0x1FF
  code := 0x17E
  op := .of 16 0x7F
  slots _ := [ssrc1, ssrc0]

def sop1 : Format 32 where
  mark := .of 23 0x1FF
  code := 0x17D
  op := .of 8 0xFF
  slots _ := [sdst, ssrc0]

def vop1 : Format 32 where
  mark := .of 25 0x7F
  code := 0x3F
  op := .of 9 0xFF
  slots _ := [vdst, src0]

def vopc : Format 32 where
  mark := .of 25 0x7F
  code := 0x3E
  op := .of 17 0xFF
  slots _ := [vsrc1, src0]

def mtbuf : Format 32 where
  mark := .of 26 0x3F
  code := 0x3A
  op := .of 16 0x07
  -- `DFMT` and `NFMT`
  slots _ := bufferSlots ++ [operand 19 0x0F, operand 23 0x07]
  more _ := [bufferMore]

def mubuf : Format 32 where
  mark := .of 26 0x3F
  code := 0x38
  op := .of 18 0x7F
  -- `LDS`
  slots _ := bufferSlots ++ [operand 16 0x1]
  more _ := [bufferMore]

def vop3 : Format 32 where
  mark := .of 26 0x3F
  code := 0x34
  op := .of 17 0x1FF
  -- `VDST`, `ABS` and `CLAMP`
  slots _ := [operand 0 0xFF, operand 8 0x07, operand 11 0x1]
  more _ := [vop3More]

def vintrp : Format 32 where
  mark := .of 26 0x3F
  code := 0x32
  op := .of 16 0x03
  -- `VSRC`, `ATTRCHAN`, `ATTR` and `VDST`
  slots _ := [operand 0 0xFF, operand 8 0x03, operand 10 0x3F, operand 18 0xFF]

def ds : Format 32 where
  mark := .of 26 0x3F
  code := 0x36
  op := .of 18 0xFF
  -- `OFFSET0`, `OFFSET1` and `GDS`
  slots _ := [operand 0 0xFF, operand 8 0xFF, operand 17 0x1]
  -- `ADDR`, `DATA0`, `DATA1` and `VDST`
  more _ := [[operand 0 0xFF, operand 8 0xFF, operand 16 0xFF, operand 24 0xFF]]

def mimg : Format 32 where
  mark := .of 26 0x3F
  code := 0x3C
  op := .of 18 0x7F
  -- `DMASK`, `UNORM`, `GLC`, `DA`, `R128`, `TFE`, `LWE` and `SLC`
  slots _ := [operand 8 0x0F, operand 12 0x1, operand 13 0x1, operand 14 0x1, operand 15 0x1,
    operand 16 0x1, operand 17 0x1, operand 25 0x1]
  -- `VADDR`, `VDATA`, `SRSRC` and `SSAMP`
  more _ := [[operand 0 0xFF, operand 8 0xFF, operand 16 0x1F, operand 21 0x1F]]

/-- An export has no opcode. -/
def exp : Format 32 where
  mark := .of 26 0x3F
  code := 0x3E
  op := .of 0 0
  -- `EN`, `TGT`, `COMPR`, `DONE` and `VM`
  slots _ := [operand 0 0x0F, operand 4 0x3F, operand 10 0x1, operand 11 0x1, operand 12 0x1]
  -- `VSRC0` to `VSRC3`
  more _ := [[operand 0 0xFF, operand 8 0xFF, operand 16 0xFF, operand 24 0xFF]]

def smrd : Format 32 where
  mark := .of 27 0x1F
  code := 0x18
  op := .of 22 0x1F
  -- `SDST`, `SBASE`, `IMM` and `OFFSET`
  slots _ := [operand 15 0x7F, operand 9 0x3F, operand 8 0x1, operand 0 0xFF]

/-- The `SIMM16` of `S_GETREG_B32` is the size, the offset and the id of a hardware register. -/
def sopkSlots (o : Dword) : List (Slot 32) :=
  if o = SqOp.sGetregB32 then [sdst, operand 11 0x1F, operand 6 0x1F, operand 0 0x3F]
  else [sdst, simm16]

theorem sopkSlots_apart (o : Dword) :
    (.of 28 0x0F :: .of 23 0x1F :: (sopkSlots o).map Slot.field).Pairwise Field.Apart := by
  unfold sopkSlots
  split
  · decide
  · decide

def sopk : Format 32 where
  mark := .of 28 0x0F
  code := 0x0B
  op := .of 23 0x1F
  slots := sopkSlots
  apart := sopkSlots_apart

def sop2 : Format 32 where
  mark := .of 30 0x03
  code := 0x02
  op := .of 23 0x7F
  slots _ := [sdst, ssrc1, ssrc0]

def vop2 : Format 32 where
  mark := .of 31 0x1
  code := 0
  op := .of 25 0x3F
  slots _ := [vdst, vsrc1, src0]

end Sq

def SqFormat.format : SqFormat → Format 32
  | .sopp => Sq.sopp
  | .sopc => Sq.sopc
  | .sop1 => Sq.sop1
  | .vop1 => Sq.vop1
  | .vopc => Sq.vopc
  | .mtbuf => Sq.mtbuf
  | .mubuf => Sq.mubuf
  | .vop3 => Sq.vop3
  | .vintrp => Sq.vintrp
  | .ds => Sq.ds
  | .mimg => Sq.mimg
  | .exp => Sq.exp
  | .smrd => Sq.smrd
  | .sopk => Sq.sopk
  | .sop2 => Sq.sop2
  | .vop2 => Sq.vop2

/-- The SI instruction set. A source of 255 stands for the dword after the instruction. -/
def si : Isa SqFormat 32 where
  format := SqFormat.format
  order := [.sopp, .sopc, .sop1, .vop1, .vopc, .mtbuf, .mubuf, .vop3, .vintrp, .ds, .mimg, .exp,
    .smrd, .sopk, .sop2, .vop2]
  escape := 255

/-! ## Telling the formats apart -/

/-- The opcodes whose bits are not those of a longer encoding. -/
def SqFormat.Own : SqFormat → Dword → Prop
  | .sopk, o => o.toNat < 0x1D
  | .sop2, o => o.toNat < 0x60
  | .vop2, o => o.toNat < 0x3E
  | _, _ => True

section Clear

/-- What holds of every opcode below a bound can be checked one by one. -/
theorem of_forall_lt {p : Dword → Prop} {n : Nat} (all : ∀ i < n, p (BitVec.ofNat 32 i))
    {o : Dword} (below : o.toNat < n) : p o := by
  have same : BitVec.ofNat 32 o.toNat = o := by rw [BitVec.ofNat_toNat, BitVec.setWidth_eq]
  rw [← same]
  exact all o.toNat below

/-- `SOP1`, `SOPC` and `SOPP` are the last three opcodes of `SOPK`. -/
theorem sopk_clear : ∀ i < 0x1D, ∀ g ∈ si.order.takeWhile (· ≠ .sopk),
    ¬ Sq.sopk.Clash (BitVec.ofNat 32 i) (si.format g) := by decide +kernel

/-- `SOPK` takes the opcodes of `SOP2` from 0x60 on. -/
theorem sop2_clear : ∀ i < 0x60, ∀ g ∈ si.order.takeWhile (· ≠ .sop2),
    ¬ Sq.sop2.Clash (BitVec.ofNat 32 i) (si.format g) := by decide +kernel

/-- `VOP1` and `VOPC` are the last two opcodes of `VOP2`. -/
theorem vop2_clear : ∀ i < 0x3E, ∀ g ∈ si.order.takeWhile (· ≠ .vop2),
    ¬ Sq.vop2.Clash (BitVec.ofNat 32 i) (si.format g) := by decide +kernel

/-- The marks of the other formats differ in a bit they share with every mark tried before. -/
theorem marks_differ (name : SqFormat)
    (other : name ≠ .sopk ∧ name ≠ .sop2 ∧ name ≠ .vop2) :
    ∀ g ∈ si.order.takeWhile (· ≠ name),
      name.format.mark.set name.format.code &&& g.format.mark.cells ≠
        g.format.mark.set g.format.code &&& name.format.mark.cells := by
  revert other
  cases name <;> decide +kernel

/-- A word with one of its format's own opcodes is not taken for one of another format. -/
theorem clear_of_own {name : SqFormat} {o : Dword} (own : name.Own o) : si.Clear name o := by
  constructor
  · cases name <;> decide
  · intro g before
    by_cases other : name ≠ .sopk ∧ name ≠ .sop2 ∧ name ≠ .vop2
    · exact Format.not_clash_of_mark (marks_differ name other g before) o
    · cases name with
      | sopk =>
          apply of_forall_lt (p := fun o => ¬ Sq.sopk.Clash o (si.format g)) _ own
          exact fun i below => sopk_clear i below g before
      | sop2 =>
          apply of_forall_lt (p := fun o => ¬ Sq.sop2.Clash o (si.format g)) _ own
          exact fun i below => sop2_clear i below g before
      | vop2 =>
          apply of_forall_lt (p := fun o => ¬ Sq.vop2.Clash o (si.format g)) _ own
          exact fun i below => vop2_clear i below g before
      | _ => exact absurd (by decide) other

end Clear

end RadeonsiCompute
