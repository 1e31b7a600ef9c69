import RadeonsiCompute.Shader.Branch
import RadeonsiCompute.Shader.Code
import RadeonsiCompute.Shader.Compare
import RadeonsiCompute.Shader.Resource
import RadeonsiCompute.Lib.Store

/-!
# The programs with loops

The dwords that the test programs write for the compute units, in order from
`prog`, with the loop each of them closes by a branch back. A pointer into the
program is the index of its dword; `eleje` is the pointer that is recorded for
the branch. Values a host computes in floating point are taken as their bits.
-/

namespace RadeonsiCompute

open Lib CodeHelper

/-- A program: its dwords, where the first instruction of the loop body starts, and where the
branch back stands. -/
structure LoopProgram where
  words : List Dword
  body : Nat
  edge : Nat

/-- Write a loop and branch back. The displacement is computed from `p` at the loop and `p` at
the branch, and passed as an `int16_t`. -/
def LoopProgram.close (setup loop rest : List Dword) (distance : Int → Int → Int) :
    LoopProgram where
  words := setup ++ loop ++
    (sCbranchScc0 (.ofInt 16 (distance setup.length (setup ++ loop).length)) ++ rest)
  body := setup.length
  edge := (setup ++ loop).length

/-! ## What the kernels have in common -/

/-- Count a thread and store the time. -/
def clockStart : List Dword := List.flatten [
  vMovImm32 1 0x0002, vMovImm32 2 0x0001,
  sMovImm32 126 0x00000001, sMovImm32 127 0x00000000,
  vMovB32 1 4, vMovB32 2 4, vMulI32I24Imm32 1 1 64,
  vMovImm32 1 0x00000000, vMovImm32 2 0x00000007,
  -- `BUFFER_ATOMIC_ADD`
  mubuf 128 0 0 0 2 0 50 0 0 1 0 0 0,
  sWaitcnt, vMovB32 1 4, sMovImm32 6 0x42, sMemtime 6, sWaitcnt, vMovB32 4 6, vMovB32 5 7,
  -- `TBUFFER_STORE_FORMAT_XY`
  mtbuf 4 11 5 0 0 1 0 0 128 0 0 0 4 2,
  sWaitcnt]

/-- All threads on, and the loop counter zero. -/
def loopStart : List Dword := List.flatten [
  sMovImm32 126 0xFFFFFFFF, sMovImm32 127 0xFFFFFFFF, sMovImm32 8 0]

/-- Count in `s8` to `iternum`, which is more than 1 in every program. -/
def loopTest (iternum : Dword) : List Dword := List.flatten [
  sAddI32 8 8 255, [1], sCmpLtI32 8 255, [iternum]]

/-- Load the descriptor of a buffer. -/
def loadResource (r : BufferResource) : List Dword := List.flatten [
  sMovImm32 0 (r.data 0), sMovImm32 1 (r.data 1), sMovImm32 2 (r.data 2), sMovImm32 3 (r.data 3)]

def clockRead : List Dword := List.flatten [
  sMovImm32 126 0x00000001, sMovImm32 127 0x00000000, sMemtime 6, sWaitcnt]

/-- Store the times, the hardware id and the status. -/
def clockStore : List Dword := List.flatten [
  sGetregB32 8 31 0 4, sGetregB32 9 31 0 5,
  vMovB32 4 6, vMovB32 5 7, vMovB32 6 4, vMovB32 7 8, vAddI32Imm32 2 2 2,
  -- `TBUFFER_STORE_FORMAT_XYZW`
  mtbuf 4 14 7 0 0 1 0 0 128 0 0 0 4 2,
  sWaitcnt, vMovB32 4 9, vAddI32Imm32 2 2 4,
  -- `TBUFFER_STORE_FORMAT_X`
  mtbuf 4 4 4 0 0 1 0 0 128 0 0 0 4 2,
  sWaitcnt]

/-! ## Arithmetic kernels -/

/-- `2` and `1` as floats. -/
def operandStart : List Dword := List.flatten [vMovImm32 4 0x40000000, vMovImm32 5 0x3F800000]

def fmaBody (ii2 : Nat) : List Dword :=
  (List.replicate ii2 (vFmaF32 4 0 0 (256 + 5) (256 + 4) (256 + 4) 0 0)).flatten

def fmaProgram (ii2 : Nat) : LoopProgram :=
  .close (clockStart ++ loopStart ++ operandStart) (fmaBody ii2 ++ loopTest 1000)
    (clockRead ++ clockStore ++ sEndpgm)
    fun eleje p => eleje - p

def flopsBody (ii2 : Nat) : List Dword := (List.replicate ii2 (vAddF32 4 4 (256 + 4))).flatten

/-- The program of `main`, which loads the address of the trap handler first. -/
def flopsProgram (trapVa : BitVec 64) (ii2 : Nat) : LoopProgram :=
  .close
    (sMovImm32 108 (trapVa.setWidth 32) ++ sMovImm32 109 ((trapVa >>> 32).setWidth 32) ++
      clockStart ++ loopStart ++ operandStart)
    (flopsBody ii2 ++ loopTest 10000)
    (clockRead ++ clockStore ++ sEndpgm ++ sEndpgm ++ sEndpgm)
    fun eleje p => eleje - p

/-! ## Memory kernels -/

/-- The descriptor of a buffer of `stride` bytes an element, which `num_format` and
`data_format` 4 make of 32-bit integers. -/
def integerResource (va : BitVec 64) (stride : BitVec 14) : BufferResource :=
  ((((((((((BufferResource.new.assign .baseAddr (va.setWidth 48)).assign .stride stride).assign
    .numRecords 16777216).assign .dstSelX 4).assign .dstSelY 4).assign .dstSelZ 4).assign
    .dstSelW 4).assign .numFormat 4).assign .dataFormat 4).assign .elementSize 1).assign .addTidEn 0

/-- The address of each thread's element, from the `num_thread[0]` threads of a group. -/
def threadStart (numThread : Dword) : List Dword := List.flatten [
  vMovB32 3 4, vMulI32I24Imm32 3 3 numThread, vAddI32 3 3 (256 + 0),
  vMovB32 4 (256 + 3), vMovB32 5 (256 + 3), vMovB32 6 (256 + 3), vMovB32 7 (256 + 3),
  vMovB32 8 (256 + 3)]

def memorySetup (va : BitVec 64) (numThread : Dword) : List Dword :=
  clockStart ++ loadResource (integerResource va 16) ++ loopStart ++ threadStart numThread

def memoryRest (va : BitVec 64) : List Dword :=
  clockRead ++ loadResource (integerResource va 4) ++ clockStore ++ sEndpgm

/-- Read 16 bytes for each of the 512 threads of 32 groups, `ii2` times over. -/
def readBody (ii2 : Nat) : List Dword :=
  vMulI32I24Imm32 3 8 1 ++
    (List.replicate ii2
      -- `TBUFFER_LOAD_FORMAT_XYZW`
      (mtbuf 4 14 3 0 0 1 0 0 128 0 0 0 4 3 ++ vAddI32Imm32 3 3 16384 ++ sWaitcnt)).flatten

def readProgram (testVa dataVa : BitVec 64) (ii2 : Nat) : LoopProgram :=
  .close (memorySetup testVa 512) (readBody ii2 ++ loopTest 1000) (memoryRest dataVa)
    fun p₀ p =>
      let eleje := p₀ - 1
      eleje - p

/-- Write 16 bytes for each of the 256 threads of 32 groups, `ii2` times over. -/
def writeBody (ii2 : Nat) : List Dword :=
  vMulI32I24Imm32 3 8 1 ++
    (List.replicate ii2
      -- `TBUFFER_STORE_FORMAT_XYZW`
      (mtbuf 4 14 7 0 0 1 0 0 128 0 0 0 4 3 ++ sWaitcnt ++ vAddI32Imm32 3 3 8192)).flatten

def writeProgram (testVa dataVa : BitVec 64) (ii2 : Nat) : LoopProgram :=
  .close (memorySetup testVa 256) (writeBody ii2 ++ loopTest 1000) (memoryRest dataVa)
    fun p₀ p =>
      let eleje := p₀ - 1
      eleje - p

/-- `ii2*write_byte_count*state.dim[0]*state.num_thread[0] < test_memory_size`, all `int`. -/
def fitsMemory (ii2 : Nat) (numThread memorySize : Dword) : Bool :=
  (BitVec.ofNat 32 ii2 * 16 * 32 * numThread).slt memorySize

/-! ## The Mandelbrot kernel -/

/-- The arguments of `set_program` as its immediates show them. -/
structure MandelbrotArgs where
  mx : Dword
  centerX : Dword
  centerY : Dword
  scaleX : Dword
  scaleY : Dword
  offsetX : Dword
  offsetY : Dword
  scaleFactor : Dword
  red : Dword
  green : Dword
  blue : Dword

/-- One of the colours, from the iteration count in `v10`. -/
def mandelbrotColour (v shift : Dword) : List Dword := List.flatten [
  vMulF32 v 10 255, [0x3E4CCCCD], vAddF32 v v 255, [shift], vSinF32 v (256 + v),
  vAddF32 v v 255, [0x3F800347], vMulF32 v v 255, [0x42FE0000]]

def mandelbrotSetup (args : MandelbrotArgs) : List Dword := List.flatten [
  sNop, sNop, sNop, sNop, sNop, vMovImm32 8 0xFFFFFF,
  vMovB32 5 4, vMulI32I24 5 5 255, [256], vAddI32 6 0 (256 + 5), vMovB32 8 5,
  vMulI32I24 0 8 255, [args.mx], vAddI32 0 0 (256 + 6),
  vCvtF32I32 6 (256 + 6), vCvtF32I32 8 (256 + 8),
  vAddF32 6 6 255, [args.centerX], vAddF32 8 8 255, [args.centerY],
  vMulF32 6 6 255, [args.scaleX], vMulF32 8 8 255, [args.scaleY],
  vAddF32 6 6 255, [args.offsetX], vAddF32 8 8 255, [args.offsetY],
  sMovB64 12 126, sMovImm32 8 0, vMovImm32 10 0, vMovImm32 12 0, vMovImm32 35 0, vMovImm32 36 0]

/-- One iteration, left early by the branch over the test when no thread is on. -/
def mandelbrotBody : List Dword := List.flatten [
  vAddF32 10 10 242, sAddI32 8 8 129,
  vMulF32 32 35 (256 + 35), vAddF32 32 32 (256 + 6), vMulF32 33 36 (256 + 36),
  vSubF32 40 33 (256 + 32),
  vMulF32 32 35 255, [0x40000000], vMulF32 33 32 (256 + 36), vAddF32 36 33 (256 + 8),
  vMovB32 35 (256 + 40),
  vMulF32 32 35 (256 + 35), vMulF32 33 36 (256 + 36), vAddF32 12 32 (256 + 33),
  vCmpxGtF32 12 255, [0x41C80000],
  sCbranchExecz 3, sCmpLtI32 8 255, [0x4FF]]

def mandelbrotRest (args : MandelbrotArgs) : List Dword := List.flatten [
  sMovB64 126 12, vSqrtF32 12 (256 + 12), vLogF32 12 (256 + 12),
  vMulF32 12 12 255, [args.scaleFactor], vLogF32 12 (256 + 12), vSubF32 10 12 (256 + 10),
  mandelbrotColour 11 args.red, mandelbrotColour 12 args.green, mandelbrotColour 13 args.blue,
  vCvtI32F32 11 (256 + 11), vCvtI32F32 12 (256 + 12), vCvtI32F32 13 (256 + 13),
  vMulI32I24 12 12 255, [256], vMulI32I24 13 13 255, [65536],
  vMovB32 10 (256 + 11), vAddI32 10 10 (256 + 12), vAddI32 10 10 (256 + 13),
  -- `TBUFFER_STORE_FORMAT_X`
  mtbuf 4 4 4 0 0 1 0 0 128 0 0 0 10 0,
  sWaitcnt, sNop, sNop, sNop, sNop, sEndpgm]

/-- The program of `set_program`. -/
def mandelbrotProgram (args : MandelbrotArgs) : LoopProgram :=
  .close (mandelbrotSetup args) mandelbrotBody (mandelbrotRest args) fun eleje p => eleje - p - 1

/-! ## The generators -/

inductive Generator
  | fma | flops | read | write | mandelbrot
  deriving DecidableEq, Repr

/-- What the programs depend on besides the repetition count. -/
structure KernelArgs where
  trapVa : BitVec 64
  testVa : BitVec 64
  dataVa : BitVec 64
  image : MandelbrotArgs

namespace Generator

/-- The memory kernels check that the accesses stay inside 64 and 128 MiB. -/
def admits (g : Generator) (ii2 : Nat) : Bool :=
  match g with
  | read => fitsMemory ii2 512 67108864
  | write => fitsMemory ii2 256 134217728
  | _ => true

def program (g : Generator) (args : KernelArgs) (ii2 : Nat) : LoopProgram :=
  match g with
  | fma => fmaProgram ii2
  | flops => flopsProgram args.trapVa ii2
  | read => readProgram args.testVa args.dataVa ii2
  | write => writeProgram args.testVa args.dataVa ii2
  | mandelbrot => mandelbrotProgram args.image

/-- The program with `ii2` repetitions in its loop; that of the Mandelbrot kernel has no such
count. -/
def emit (g : Generator) (args : KernelArgs) (ii2 : Nat) : Except Fault LoopProgram :=
  if g.admits ii2 then .ok (g.program args ii2)
  else .error (.assertion
    "ii2*write_byte_count*state.dim[0]*state.num_thread[0] < test_memory_size")

end Generator

end RadeonsiCompute
