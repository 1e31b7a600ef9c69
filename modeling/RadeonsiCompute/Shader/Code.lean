import RadeonsiCompute.Cs.Packet

/-!
# The instruction builders

What each builder of the code helper writes at `p`, in order; `p` then points
past it. Operands are the 32-bit patterns of the C arguments, a `float` that of
`floatconv`. Builders that `or` the same fields together share a definition.
-/

namespace RadeonsiCompute

namespace CodeHelper

/-! ## Buffer and memory instructions -/

/-- The second dword of `mtbuf` and `mubuf`. -/
def bufferWord (soffset tfe slc srsrc vdata vaddr : Dword) : Dword :=
  vaddr ||| vdata <<< 8 ||| srsrc <<< 16 ||| slc <<< 22 ||| tfe <<< 23 ||| soffset <<< 24

def mtbuf (nfmt dfmt op addr64 glc idxen offen offset soffset tfe slc srsrc vdata vaddr : Dword) :
    List Dword :=
  [0xE8000000#32 ||| offset ||| offen <<< 12 ||| idxen <<< 13 ||| glc <<< 14 ||| addr64 <<< 15 |||
      op <<< 16 ||| dfmt <<< 19 ||| nfmt <<< 23,
    bufferWord soffset tfe slc srsrc vdata vaddr]

def mubuf (soffset tfe slc srsrc vdata vaddr op lds addr64 glc idxen offen offset : Dword) :
    List Dword :=
  [0xE0000000#32 ||| offset ||| offen <<< 12 ||| idxen <<< 13 ||| glc <<< 14 ||| addr64 <<< 15 |||
      lds <<< 16 ||| op <<< 18,
    bufferWord soffset tfe slc srsrc vdata vaddr]

def sLoadDword (sbase sdst offset imm : Dword) : List Dword :=
  [0xC0000000#32 ||| offset ||| imm <<< 8 ||| sbase <<< 9 ||| sdst <<< 15 ||| 0#32 <<< 22]

def smrd (op sdst sbase imm offset : Dword) : List Dword :=
  [0xC0000000#32 ||| op <<< 22 ||| sdst <<< 15 ||| sbase <<< 9 ||| imm <<< 8 ||| offset <<< 0]

def sMemtime (sdst : Dword) : List Dword := smrd 30 sdst 0 0 0

/-! ## Scalar instructions -/

/-- The dword with the prefix 0xBE800000. -/
def scalarWord (op sdst ssrc0 : Dword) : Dword :=
  0xBE800000#32 ||| ssrc0 ||| op <<< 8 ||| sdst <<< 16

def sMovImm32 (sdst imm : Dword) : List Dword := [scalarWord 3 sdst 255, imm]

def sMovB32 (sdst src : Dword) : List Dword := [scalarWord 3 sdst src]

def sMovB64 (sdst src : Dword) : List Dword := [scalarWord 4 sdst src]

def sGetpcB64 (sdst : Dword) : List Dword := [scalarWord 31 sdst 0]

def sSwappcB64 (sdst ssrc0 : Dword) : List Dword := [scalarWord 33 sdst ssrc0]

def sRfeB64 : List Dword := [scalarWord 34 0 0]

def sGetregB32 (sdst size offset hwregid : Dword) : List Dword :=
  [0xB0000000#32 ||| (size <<< 11 ||| offset <<< 6 ||| hwregid) ||| 18#32 <<< 23 ||| sdst <<< 16]

/-- The dword with the prefix 0xBF800000. -/
def programWord (op simm16 : Dword) : Dword := 0xBF800000#32 ||| op <<< 16 ||| simm16

def sWaitcnt : List Dword := [programWord 12 0]

def sSleep (imm : Dword) : List Dword := [programWord 14 (imm &&& 0xFFFF)]

def sEndpgm : List Dword := [programWord 1 0]

/-- `trapID` is a `uint8_t`. -/
def sTrap (trapId : BitVec 8) : List Dword := [programWord 18 (trapId.setWidth 32)]

def sNop : List Dword := [programWord 0 0]

def sopc (op ssrc1 ssrc0 : Dword) : List Dword :=
  [0xBF000000#32 ||| ssrc0 ||| ssrc1 <<< 8 ||| op <<< 16]

def sCmpLtI32 (ssrc1 ssrc0 : Dword) : List Dword := sopc 4 ssrc1 ssrc0

def sCmpGtI32 (ssrc1 ssrc0 : Dword) : List Dword := sopc 2 ssrc1 ssrc0

def sop2 (op sdst ssrc1 ssrc0 : Dword) : List Dword :=
  [0x80000000#32 ||| op <<< 23 ||| sdst <<< 16 ||| ssrc1 <<< 8 ||| ssrc0 <<< 0]

def sAddI32 (sdst ssrc1 ssrc0 : Dword) : List Dword := sop2 2 sdst ssrc1 ssrc0

def sAndB32 (sdst ssrc1 ssrc0 : Dword) : List Dword := sop2 14 sdst ssrc1 ssrc0

def sAndB64 (sdst ssrc1 ssrc0 : Dword) : List Dword := sop2 15 sdst ssrc1 ssrc0

/-! ## Vector instructions -/

/-- The dword with the prefix 0x7E000000. -/
def vectorWord (op vdst src0 : Dword) : Dword :=
  0x7E000000#32 ||| src0 ||| op <<< 9 ||| vdst <<< 17

/-- For all its name, it writes a `VOP1`. -/
def sop1 (op vdst src0 : Dword) : List Dword := [vectorWord op vdst src0]

def vMovB32 (vdst src0 : Dword) : List Dword := [vectorWord 1 vdst src0]

def vSinF32 (vdst src0 : Dword) : List Dword := [vectorWord 53 vdst src0]

def vLogF32 (vdst src0 : Dword) : List Dword := [vectorWord 39 vdst src0]

def vRcpF32 (vdst src0 : Dword) : List Dword := [vectorWord 42 vdst src0]

def vRcpF64 (vdst src0 : Dword) : List Dword := [vectorWord 47 vdst src0]

def vSqrtF32 (vdst src0 : Dword) : List Dword := [vectorWord 51 vdst src0]

def vSqrtF64 (vdst src0 : Dword) : List Dword := [vectorWord 52 vdst src0]

def vBfrevB32 (vdst src0 : Dword) : List Dword := [vectorWord 56 vdst src0]

def vCvtI32F32 (vdst src0 : Dword) : List Dword := sop1 8 vdst src0

def vCvtF32I32 (vdst src0 : Dword) : List Dword := sop1 5 vdst src0

def vMovImm32 (vdst imm : Dword) : List Dword := vMovB32 vdst 255 ++ [imm]

/-- The dword of the arithmetic with two sources. -/
def arithmeticWord (op vdst vsrc1 src0 : Dword) : Dword :=
  0#32 ||| src0 ||| vsrc1 <<< 9 ||| vdst <<< 17 ||| op <<< 25

def vMulI32I24 (vdst vsrc1 src0 : Dword) : List Dword := [arithmeticWord 9 vdst vsrc1 src0]

def vMulF32 (vdst vsrc1 src0 : Dword) : List Dword := [arithmeticWord 8 vdst vsrc1 src0]

def vAddF32 (vdst vsrc1 src0 : Dword) : List Dword := [arithmeticWord 3 vdst vsrc1 src0]

def vAndB32 (vdst vsrc1 src0 : Dword) : List Dword := [arithmeticWord 27 vdst vsrc1 src0]

def vSubF32 (vdst vsrc1 src0 : Dword) : List Dword := [arithmeticWord 4 vdst vsrc1 src0]

def vAddI32 (vdst vsrc1 src0 : Dword) : List Dword := [arithmeticWord 37 vdst vsrc1 src0]

def vMulI32I24Imm32 (vdst vsrc1 imm32 : Dword) : List Dword := vMulI32I24 vdst vsrc1 255 ++ [imm32]

def vMulF32Imm32 (vdst vsrc1 f : Dword) : List Dword := vMulF32 vdst vsrc1 255 ++ [f]

def vAddF32Imm32 (vdst vsrc1 f : Dword) : List Dword := vAddF32 vdst vsrc1 255 ++ [f]

def vAddI32Imm32 (vdst vsrc1 imm32 : Dword) : List Dword := vAddI32 vdst vsrc1 255 ++ [imm32]

def vop3a (vdst abs clamp op src0 src1 src2 omod neg : Dword) : List Dword :=
  [0xD0000000#32 ||| vdst <<< 0 ||| abs <<< 8 ||| clamp <<< 11 ||| op <<< 17,
    0#32 ||| src0 <<< 0 ||| src1 <<< 9 ||| src2 <<< 18 ||| omod <<< 27 ||| neg <<< 29]

def vFmaF32 (vdst abs clamp src0 src1 src2 omod neg : Dword) : List Dword :=
  vop3a vdst abs clamp 331 src0 src1 src2 omod neg

def vMulLoI32 (vdst src0 src1 : Dword) : List Dword := vop3a vdst 0 0 363 src0 src1 0 0 0

def vMulHiI32 (vdst src0 src1 : Dword) : List Dword := vop3a vdst 0 0 364 src0 src1 0 0 0

end CodeHelper

/-! ## Programs -/

/-- A call of a builder, the compares of vectors and the branches left out. -/
inductive BuilderCall
  | mtbuf (nfmt dfmt op addr64 glc idxen offen offset soffset tfe slc srsrc vdata vaddr : Dword)
  | mubuf (soffset tfe slc srsrc vdata vaddr op lds addr64 glc idxen offen offset : Dword)
  | sLoadDword (sbase sdst offset imm : Dword)
  | smrd (op sdst sbase imm offset : Dword)
  | sMemtime (sdst : Dword)
  | sMovImm32 (sdst imm : Dword)
  | sMovB32 (sdst src : Dword)
  | sMovB64 (sdst src : Dword)
  | sGetpcB64 (sdst : Dword)
  | sSwappcB64 (sdst ssrc0 : Dword)
  | sRfeB64
  | sGetregB32 (sdst size offset hwregid : Dword)
  | sWaitcnt
  | sSleep (imm : Dword)
  | sEndpgm
  | sTrap (trapId : BitVec 8)
  | sNop
  | sopc (op ssrc1 ssrc0 : Dword)
  | sCmpLtI32 (ssrc1 ssrc0 : Dword)
  | sCmpGtI32 (ssrc1 ssrc0 : Dword)
  | sop2 (op sdst ssrc1 ssrc0 : Dword)
  | sAddI32 (sdst ssrc1 ssrc0 : Dword)
  | sAndB32 (sdst ssrc1 ssrc0 : Dword)
  | sAndB64 (sdst ssrc1 ssrc0 : Dword)
  | sop1 (op vdst src0 : Dword)
  | vMovB32 (vdst src0 : Dword)
  | vSinF32 (vdst src0 : Dword)
  | vLogF32 (vdst src0 : Dword)
  | vRcpF32 (vdst src0 : Dword)
  | vRcpF64 (vdst src0 : Dword)
  | vSqrtF32 (vdst src0 : Dword)
  | vSqrtF64 (vdst src0 : Dword)
  | vBfrevB32 (vdst src0 : Dword)
  | vCvtI32F32 (vdst src0 : Dword)
  | vCvtF32I32 (vdst src0 : Dword)
  | vMovImm32 (vdst imm : Dword)
  | vMulI32I24 (vdst vsrc1 src0 : Dword)
  | vMulF32 (vdst vsrc1 src0 : Dword)
  | vAddF32 (vdst vsrc1 src0 : Dword)
  | vAndB32 (vdst vsrc1 src0 : Dword)
  | vSubF32 (vdst vsrc1 src0 : Dword)
  | vAddI32 (vdst vsrc1 src0 : Dword)
  | vMulI32I24Imm32 (vdst vsrc1 imm32 : Dword)
  | vMulF32Imm32 (vdst vsrc1 f : Dword)
  | vAddF32Imm32 (vdst vsrc1 f : Dword)
  | vAddI32Imm32 (vdst vsrc1 imm32 : Dword)
  | vop3a (vdst abs clamp op src0 src1 src2 omod neg : Dword)
  | vFmaF32 (vdst abs clamp src0 src1 src2 omod neg : Dword)
  | vMulLoI32 (vdst src0 src1 : Dword)
  | vMulHiI32 (vdst src0 src1 : Dword)

/-- What the call writes. -/
def BuilderCall.dwords : BuilderCall → List Dword
  | .mtbuf nfmt dfmt op addr64 glc idxen offen offset soffset tfe slc srsrc vdata vaddr =>
      CodeHelper.mtbuf nfmt dfmt op addr64 glc idxen offen offset soffset tfe slc srsrc vdata vaddr
  | .mubuf soffset tfe slc srsrc vdata vaddr op lds addr64 glc idxen offen offset =>
      CodeHelper.mubuf soffset tfe slc srsrc vdata vaddr op lds addr64 glc idxen offen offset
  | .sLoadDword sbase sdst offset imm => CodeHelper.sLoadDword sbase sdst offset imm
  | .smrd op sdst sbase imm offset => CodeHelper.smrd op sdst sbase imm offset
  | .sMemtime sdst => CodeHelper.sMemtime sdst
  | .sMovImm32 sdst imm => CodeHelper.sMovImm32 sdst imm
  | .sMovB32 sdst src => CodeHelper.sMovB32 sdst src
  | .sMovB64 sdst src => CodeHelper.sMovB64 sdst src
  | .sGetpcB64 sdst => CodeHelper.sGetpcB64 sdst
  | .sSwappcB64 sdst ssrc0 => CodeHelper.sSwappcB64 sdst ssrc0
  | .sRfeB64 => CodeHelper.sRfeB64
  | .sGetregB32 sdst size offset hwregid => CodeHelper.sGetregB32 sdst size offset hwregid
  | .sWaitcnt => CodeHelper.sWaitcnt
  | .sSleep imm => CodeHelper.sSleep imm
  | .sEndpgm => CodeHelper.sEndpgm
  | .sTrap trapId => CodeHelper.sTrap trapId
  | .sNop => CodeHelper.sNop
  | .sopc op ssrc1 ssrc0 => CodeHelper.sopc op ssrc1 ssrc0
  | .sCmpLtI32 ssrc1 ssrc0 => CodeHelper.sCmpLtI32 ssrc1 ssrc0
  | .sCmpGtI32 ssrc1 ssrc0 => CodeHelper.sCmpGtI32 ssrc1 ssrc0
  | .sop2 op sdst ssrc1 ssrc0 => CodeHelper.sop2 op sdst ssrc1 ssrc0
  | .sAddI32 sdst ssrc1 ssrc0 => CodeHelper.sAddI32 sdst ssrc1 ssrc0
  | .sAndB32 sdst ssrc1 ssrc0 => CodeHelper.sAndB32 sdst ssrc1 ssrc0
  | .sAndB64 sdst ssrc1 ssrc0 => CodeHelper.sAndB64 sdst ssrc1 ssrc0
  | .sop1 op vdst src0 => CodeHelper.sop1 op vdst src0
  | .vMovB32 vdst src0 => CodeHelper.vMovB32 vdst src0
  | .vSinF32 vdst src0 => CodeHelper.vSinF32 vdst src0
  | .vLogF32 vdst src0 => CodeHelper.vLogF32 vdst src0
  | .vRcpF32 vdst src0 => CodeHelper.vRcpF32 vdst src0
  | .vRcpF64 vdst src0 => CodeHelper.vRcpF64 vdst src0
  | .vSqrtF32 vdst src0 => CodeHelper.vSqrtF32 vdst src0
  | .vSqrtF64 vdst src0 => CodeHelper.vSqrtF64 vdst src0
  | .vBfrevB32 vdst src0 => CodeHelper.vBfrevB32 vdst src0
  | .vCvtI32F32 vdst src0 => CodeHelper.vCvtI32F32 vdst src0
  | .vCvtF32I32 vdst src0 => CodeHelper.vCvtF32I32 vdst src0
  | .vMovImm32 vdst imm => CodeHelper.vMovImm32 vdst imm
  | .vMulI32I24 vdst vsrc1 src0 => CodeHelper.vMulI32I24 vdst vsrc1 src0
  | .vMulF32 vdst vsrc1 src0 => CodeHelper.vMulF32 vdst vsrc1 src0
  | .vAddF32 vdst vsrc1 src0 => CodeHelper.vAddF32 vdst vsrc1 src0
  | .vAndB32 vdst vsrc1 src0 => CodeHelper.vAndB32 vdst vsrc1 src0
  | .vSubF32 vdst vsrc1 src0 => CodeHelper.vSubF32 vdst vsrc1 src0
  | .vAddI32 vdst vsrc1 src0 => CodeHelper.vAddI32 vdst vsrc1 src0
  | .vMulI32I24Imm32 vdst vsrc1 imm32 => CodeHelper.vMulI32I24Imm32 vdst vsrc1 imm32
  | .vMulF32Imm32 vdst vsrc1 f => CodeHelper.vMulF32Imm32 vdst vsrc1 f
  | .vAddF32Imm32 vdst vsrc1 f => CodeHelper.vAddF32Imm32 vdst vsrc1 f
  | .vAddI32Imm32 vdst vsrc1 imm32 => CodeHelper.vAddI32Imm32 vdst vsrc1 imm32
  | .vop3a vdst abs clamp op src0 src1 src2 omod neg =>
      CodeHelper.vop3a vdst abs clamp op src0 src1 src2 omod neg
  | .vFmaF32 vdst abs clamp src0 src1 src2 omod neg =>
      CodeHelper.vFmaF32 vdst abs clamp src0 src1 src2 omod neg
  | .vMulLoI32 vdst src0 src1 => CodeHelper.vMulLoI32 vdst src0 src1
  | .vMulHiI32 vdst src0 src1 => CodeHelper.vMulHiI32 vdst src0 src1

end RadeonsiCompute
