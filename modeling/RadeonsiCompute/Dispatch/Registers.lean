import RadeonsiCompute.Lib.BitField

/-!
# The compute registers

The register addresses and fields of `sid.h` that a dispatch writes. The macros
`S_x` and `G_x` of a field are its `set` and its `get`, so each field is the
mask and the shift its macros have.
-/

namespace RadeonsiCompute

open Lib

def siShRegOffset : BitVec 32 := 0x0000B000

def siShRegEnd : BitVec 32 := 0x0000C000

namespace Reg

def computeDispatchInitiator : BitVec 32 := 0x00B800

def computeDimX : BitVec 32 := 0x00B804

def computeDimY : BitVec 32 := 0x00B808

def computeDimZ : BitVec 32 := 0x00B80C

def computeStartX : BitVec 32 := 0x00B810

def computeStartY : BitVec 32 := 0x00B814

def computeStartZ : BitVec 32 := 0x00B818

def computeNumThreadX : BitVec 32 := 0x00B81C

def computeNumThreadY : BitVec 32 := 0x00B820

def computeNumThreadZ : BitVec 32 := 0x00B824

def computeMaxWaveId : BitVec 32 := 0x00B82C

def computePgmLo : BitVec 32 := 0x00B830

def computePgmHi : BitVec 32 := 0x00B834

def computePgmRsrc1 : BitVec 32 := 0x00B848

def computePgmRsrc2 : BitVec 32 := 0x00B84C

def computeResourceLimits : BitVec 32 := 0x00B854

def computeStaticThreadMgmtSe0 : BitVec 32 := 0x00B858

def computeStaticThreadMgmtSe1 : BitVec 32 := 0x00B85C

def computeUserData0 : BitVec 32 := 0x00B900

/-! The registers of a dimension. -/

def computeDim : Fin 3 → BitVec 32
  | 0 => computeDimX
  | 1 => computeDimY
  | 2 => computeDimZ

def computeStart : Fin 3 → BitVec 32
  | 0 => computeStartX
  | 1 => computeStartY
  | 2 => computeStartZ

def computeNumThread : Fin 3 → BitVec 32
  | 0 => computeNumThreadX
  | 1 => computeNumThreadY
  | 2 => computeNumThreadZ

end Reg

/-! ## `S_00B800` -/

namespace DispatchInitiator

def computeShaderEn : Field 32 := .of 0 0x1

def partialTgEn : Field 32 := .of 1 0x1

def forceStartAt000 : Field 32 := .of 2 0x1

def orderedAppendEnbl : Field 32 := .of 3 0x1

end DispatchInitiator

/-! ## `S_00B81C`, `S_00B820`, `S_00B824` -/

namespace NumThread

def full : Field 32 := .of 0 0xFFFF

end NumThread

/-! ## `S_00B82C` -/

namespace MaxWaveId

def maxWaveId : Field 32 := .of 0 0xFFF

end MaxWaveId

/-! ## `S_00B848` -/

namespace PgmRsrc1

def vgprs : Field 32 := .of 0 0x3F

def sgprs : Field 32 := .of 6 0x0F

def priority : Field 32 := .of 10 0x03

def floatMode : Field 32 := .of 12 0xFF

def priv : Field 32 := .of 20 0x1

def dx10Clamp : Field 32 := .of 21 0x1

def debugMode : Field 32 := .of 22 0x1

def ieeeMode : Field 32 := .of 23 0x1

end PgmRsrc1

/-! ## `S_00B84C` -/

namespace PgmRsrc2

def scratchEn : Field 32 := .of 0 0x1

def userSgpr : Field 32 := .of 1 0x1F

/-- Defined in `computesi.c`, not in `sid.h`. -/
def trapEn : Field 32 := .of 6 0x1

def tgidXEn : Field 32 := .of 7 0x1

def tgidYEn : Field 32 := .of 8 0x1

def tgidZEn : Field 32 := .of 9 0x1

def tgSizeEn : Field 32 := .of 10 0x1

def tidigCompCnt : Field 32 := .of 11 0x03

def ldsSize : Field 32 := .of 15 0x1FF

def excpEn : Field 32 := .of 24 0x7F

end PgmRsrc2

/-! ## `S_00B854` -/

namespace ResourceLimits

def wavesPerSh : Field 32 := .of 0 0x3F

def tgPerCu : Field 32 := .of 12 0x0F

def lockThreshold : Field 32 := .of 16 0x3F

def simdDestCntl : Field 32 := .of 22 0x1

end ResourceLimits

/-! ## `S_00B858` and `S_00B85C` -/

namespace StaticThreadMgmt

def sh0CuEn : Field 32 := .of 0 0xFFFF

def sh1CuEn : Field 32 := .of 16 0xFFFF

end StaticThreadMgmt

/-! ## `S_00B860`, which no dispatch writes -/

namespace TmpringSize

def waves : Field 32 := .of 0 0xFFF

def wavesize : Field 32 := .of 12 0x1FFF

end TmpringSize

/-! ## `S_0085F0` -/

namespace CpCoherCntl

def tcl1ActionEna : Field 32 := .of 22 0x1

def tcActionEna : Field 32 := .of 23 0x1

def shKcacheActionEna : Field 32 := .of 27 0x1

def shIcacheActionEna : Field 32 := .of 29 0x1

end CpCoherCntl

end RadeonsiCompute
