import RadeonsiCompute.Shader.Loops
import RadeonsiCompute.Shader.Program

/-!
# Listings of the kernels

Every program the generators write is read back instruction by instruction, for
all their arguments. The calls are those of the generators in their order; a
literal that a generator appends by itself is written as the call that appends
it. `Generator.listing` joins the parts of a program, and
`program_reads` says which programs branch back to the start of some
instruction, be it the right one or not.
-/

namespace RadeonsiCompute

open Lib CodeHelper

/-- The call with its literal cleared, which no check looks at. -/
def BuilderCall.blank : BuilderCall → BuilderCall
  | .sMovImm32 sdst _ => .sMovImm32 sdst 0
  | .vMovImm32 vdst _ => .vMovImm32 vdst 0
  | .vMulI32I24Imm32 vdst vsrc1 _ => .vMulI32I24Imm32 vdst vsrc1 0
  | .vMulF32Imm32 vdst vsrc1 _ => .vMulF32Imm32 vdst vsrc1 0
  | .vAddF32Imm32 vdst vsrc1 _ => .vAddF32Imm32 vdst vsrc1 0
  | .vAddI32Imm32 vdst vsrc1 _ => .vAddI32Imm32 vdst vsrc1 0
  | c => c

theorem BuilderCall.legal_of_blank {c : BuilderCall} (legal : c.blank.Legal) : c.Legal := by
  obtain ⟨op, operands, more, -, own⟩ := id legal
  cases c with
  | sMovImm32 | vMovImm32 | vMulI32I24Imm32 | vMulF32Imm32 | vAddF32Imm32 | vAddI32Imm32 =>
      exact ⟨op, operands, more, fun none => by simp [BuilderCall.instr] at none, own⟩
  | _ => exact legal

/-- Calls are listed if they are legal with other literals. -/
theorem lists_calls (calls like : List BuilderCall)
    (same : calls.map BuilderCall.blank = like.map BuilderCall.blank)
    (legal : ∀ c ∈ like.map BuilderCall.blank, c.Legal) :
    si.Lists (calls.flatMap BuilderCall.dwords) (calls.map BuilderCall.instr) := by
  have each : ∀ c ∈ calls, c.Legal := by
    intro c member
    apply BuilderCall.legal_of_blank
    apply legal
    rw [← same]
    exact List.mem_map_of_mem member
  constructor
  · intro i member
    obtain ⟨c, called, rfl⟩ := List.mem_map.mp member
    exact (each c called).instr
  · rw [List.flatMap_map]
    exact List.flatMap_congr fun c member => (each c member).dwords_eq

/-- An instruction that a literal was appended to. -/
theorem legal_literal {i : Instr SqFormat 32} (imm : Dword) (own : i.format.Own i.op)
    (holds : (si.format i.format).op.Holds i.op)
    (fits : Slot.Fits ((si.format i.format).slots i.op) i.operands)
    (more : List.Forall₂ Slot.Fits ((si.format i.format).more i.op) i.more)
    (asked : 255 ∈ si.sources i) : si.Legal { i with literal := some imm } where
  clear := clear_of_own own
  holds := holds
  fits := fits
  fits_more := more
  asks := iff_of_true rfl asked

/-! ## What the kernels have in common -/

def clockStartCalls : List BuilderCall := [
  .vMovImm32 1 0x0002, .vMovImm32 2 0x0001, .sMovImm32 126 0x00000001, .sMovImm32 127 0x00000000,
  .vMovB32 1 4, .vMovB32 2 4, .vMulI32I24Imm32 1 1 64,
  .vMovImm32 1 0x00000000, .vMovImm32 2 0x00000007,
  .mubuf 128 0 0 0 2 0 50 0 0 1 0 0 0,
  .sWaitcnt, .vMovB32 1 4, .sMovImm32 6 0x42, .sMemtime 6, .sWaitcnt, .vMovB32 4 6, .vMovB32 5 7,
  .mtbuf 4 11 5 0 0 1 0 0 128 0 0 0 4 2, .sWaitcnt]

def loopStartCalls : List BuilderCall := [
  .sMovImm32 126 0xFFFFFFFF, .sMovImm32 127 0xFFFFFFFF, .sMovImm32 8 0]

def loadResourceCalls (r : BufferResource) : List BuilderCall := [
  .sMovImm32 0 (r.data 0), .sMovImm32 1 (r.data 1), .sMovImm32 2 (r.data 2),
  .sMovImm32 3 (r.data 3)]

def clockReadCalls : List BuilderCall := [
  .sMovImm32 126 0x00000001, .sMovImm32 127 0x00000000, .sMemtime 6, .sWaitcnt]

def clockStoreCalls : List BuilderCall := [
  .sGetregB32 8 31 0 4, .sGetregB32 9 31 0 5,
  .vMovB32 4 6, .vMovB32 5 7, .vMovB32 6 4, .vMovB32 7 8, .vAddI32Imm32 2 2 2,
  .mtbuf 4 14 7 0 0 1 0 0 128 0 0 0 4 2,
  .sWaitcnt, .vMovB32 4 9, .vAddI32Imm32 2 2 4,
  .mtbuf 4 4 4 0 0 1 0 0 128 0 0 0 4 2, .sWaitcnt]

theorem lists_clockStart : si.Lists clockStart (clockStartCalls.map BuilderCall.instr) :=
  lists_calls clockStartCalls clockStartCalls rfl (by decide)

theorem lists_loopStart : si.Lists loopStart (loopStartCalls.map BuilderCall.instr) :=
  lists_calls loopStartCalls loopStartCalls rfl (by decide)

theorem lists_loadResource (r : BufferResource) :
    si.Lists (loadResource r) ((loadResourceCalls r).map BuilderCall.instr) :=
  lists_calls (loadResourceCalls r)
    [.sMovImm32 0 0, .sMovImm32 1 0, .sMovImm32 2 0, .sMovImm32 3 0] rfl (by decide)

theorem lists_clockRead : si.Lists clockRead (clockReadCalls.map BuilderCall.instr) :=
  lists_calls clockReadCalls clockReadCalls rfl (by decide)

theorem lists_clockStore : si.Lists clockStore (clockStoreCalls.map BuilderCall.instr) :=
  lists_calls clockStoreCalls clockStoreCalls rfl (by decide)

theorem lists_sEndpgm : si.Lists sEndpgm [BuilderCall.sEndpgm.instr] :=
  lists_calls [.sEndpgm] [.sEndpgm] rfl (by decide)

/-- Count, and compare with a literal. -/
def loopTestInstrs (iternum : Dword) : List (Instr SqFormat 32) := [
  ⟨.sop2, SqOp.sAddI32, [8, 8, 255], [], some 1⟩,
  ⟨.sopc, SqOp.sCmpLtI32, [8, 255], [], some iternum⟩]

theorem lists_loopTest (iternum : Dword) :
    si.Lists (loopTest iternum) (loopTestInstrs iternum) where
  legal := by
    simp only [loopTestInstrs, List.forall_mem_cons]
    refine ⟨?_, ?_, by simp⟩
    · exact legal_literal (i := ⟨.sop2, SqOp.sAddI32, [8, 8, 255], [], none⟩) 1
        (Nat.le_of_ble_eq_true rfl) (by decide) (by decide) (by decide) (by decide)
    · exact legal_literal (i := ⟨.sopc, SqOp.sCmpLtI32, [8, 255], [], none⟩) iternum
        trivial (by decide) (by decide) (by decide) (by decide)
  encoded := by
    have add : sAddI32 8 8 255 = [Sq.sop2.firstWord SqOp.sAddI32 [8, 8, 255]] :=
      sop2_eq (by decide) (by decide)
    have compare : sCmpLtI32 8 255 = [Sq.sopc.firstWord SqOp.sCmpLtI32 [8, 255]] :=
      sopc_eq (by decide) (by decide)
    simp only [loopTest, add, compare]
    rfl

/-- A branch with an `int16_t`. -/
def branchInstr (op : Dword) (imm : BitVec 16) : Instr SqFormat 32 :=
  ⟨.sopp, op, [imm.setWidth 32], [], none⟩

theorem lists_branch {op : Dword} (holds : Sq.sopp.op.Holds op) (imm : BitVec 16) :
    si.Lists [branchWord op imm] [branchInstr op imm] where
  legal := by
    intro i member
    obtain rfl := List.mem_singleton.mp member
    exact ⟨clear_of_own trivial, holds, simm16_fits op imm, .nil, by simp [branchInstr,
      Isa.sources, Slot.sources, si, SqFormat.format, Sq.sopp, Sq.simm16, Sq.operand]⟩
  encoded := by rw [branchWord_eq holds]; rfl

/-! ## The parts of the kernels -/

def operandStartCalls : List BuilderCall := [.vMovImm32 4 0x40000000, .vMovImm32 5 0x3F800000]

def trapStartCalls (trapVa : BitVec 64) : List BuilderCall := [
  .sMovImm32 108 (trapVa.setWidth 32), .sMovImm32 109 ((trapVa >>> 32).setWidth 32)]

def threadStartCalls (numThread : Dword) : List BuilderCall := [
  .vMovB32 3 4, .vMulI32I24Imm32 3 3 numThread, .vAddI32 3 3 (256 + 0),
  .vMovB32 4 (256 + 3), .vMovB32 5 (256 + 3), .vMovB32 6 (256 + 3), .vMovB32 7 (256 + 3),
  .vMovB32 8 (256 + 3)]

def fmaCall : BuilderCall := .vFmaF32 4 0 0 (256 + 5) (256 + 4) (256 + 4) 0 0

def flopCall : BuilderCall := .vAddF32 4 4 (256 + 4)

def readCalls : List BuilderCall := [
  .mtbuf 4 14 3 0 0 1 0 0 128 0 0 0 4 3, .vAddI32Imm32 3 3 16384, .sWaitcnt]

def writeCalls : List BuilderCall := [
  .mtbuf 4 14 7 0 0 1 0 0 128 0 0 0 4 3, .sWaitcnt, .vAddI32Imm32 3 3 8192]

def addressCall : BuilderCall := .vMulI32I24Imm32 3 8 1

def mandelbrotColourCalls (v shift : Dword) : List BuilderCall := [
  .vMulF32Imm32 v 10 0x3E4CCCCD, .vAddF32Imm32 v v shift, .vSinF32 v (256 + v),
  .vAddF32Imm32 v v 0x3F800347, .vMulF32Imm32 v v 0x42FE0000]

def mandelbrotSetupCalls (args : MandelbrotArgs) : List BuilderCall := [
  .sNop, .sNop, .sNop, .sNop, .sNop, .vMovImm32 8 0xFFFFFF,
  .vMovB32 5 4, .vMulI32I24Imm32 5 5 256, .vAddI32 6 0 (256 + 5), .vMovB32 8 5,
  .vMulI32I24Imm32 0 8 args.mx, .vAddI32 0 0 (256 + 6),
  .vCvtF32I32 6 (256 + 6), .vCvtF32I32 8 (256 + 8),
  .vAddF32Imm32 6 6 args.centerX, .vAddF32Imm32 8 8 args.centerY,
  .vMulF32Imm32 6 6 args.scaleX, .vMulF32Imm32 8 8 args.scaleY,
  .vAddF32Imm32 6 6 args.offsetX, .vAddF32Imm32 8 8 args.offsetY,
  .sMovB64 12 126, .sMovImm32 8 0, .vMovImm32 10 0, .vMovImm32 12 0, .vMovImm32 35 0,
  .vMovImm32 36 0]

/-- An iteration up to the test that it is left by. -/
def mandelbrotBodyCalls : List BuilderCall := [
  .vAddF32 10 10 242, .sAddI32 8 8 129,
  .vMulF32 32 35 (256 + 35), .vAddF32 32 32 (256 + 6), .vMulF32 33 36 (256 + 36),
  .vSubF32 40 33 (256 + 32),
  .vMulF32Imm32 32 35 0x40000000, .vMulF32 33 32 (256 + 36), .vAddF32 36 33 (256 + 8),
  .vMovB32 35 (256 + 40),
  .vMulF32 32 35 (256 + 35), .vMulF32 33 36 (256 + 36), .vAddF32 12 32 (256 + 33)]

/-- The test, the branch that leaves the loop, and the count of the iterations. -/
def mandelbrotTestInstrs : List (Instr SqFormat 32) := [
  ⟨.vopc, SqOp.vCmpxGtF32, [12, 255], [], some 0x41C80000⟩,
  branchInstr SqOp.sCbranchExecz 3,
  ⟨.sopc, SqOp.sCmpLtI32, [8, 255], [], some 0x4FF⟩]

def mandelbrotRestCalls (args : MandelbrotArgs) : List BuilderCall :=
  [.sMovB64 126 12, .vSqrtF32 12 (256 + 12), .vLogF32 12 (256 + 12),
    .vMulF32Imm32 12 12 args.scaleFactor, .vLogF32 12 (256 + 12), .vSubF32 10 12 (256 + 10)] ++
  mandelbrotColourCalls 11 args.red ++ mandelbrotColourCalls 12 args.green ++
  mandelbrotColourCalls 13 args.blue ++
  [.vCvtI32F32 11 (256 + 11), .vCvtI32F32 12 (256 + 12), .vCvtI32F32 13 (256 + 13),
    .vMulI32I24Imm32 12 12 256, .vMulI32I24Imm32 13 13 65536,
    .vMovB32 10 (256 + 11), .vAddI32 10 10 (256 + 12), .vAddI32 10 10 (256 + 13),
    .mtbuf 4 4 4 0 0 1 0 0 128 0 0 0 10 0, .sWaitcnt, .sNop, .sNop, .sNop, .sNop, .sEndpgm]

theorem lists_operandStart : si.Lists operandStart (operandStartCalls.map BuilderCall.instr) :=
  lists_calls operandStartCalls operandStartCalls rfl (by decide)

theorem lists_trapStart (trapVa : BitVec 64) :
    si.Lists (sMovImm32 108 (trapVa.setWidth 32) ++ sMovImm32 109 ((trapVa >>> 32).setWidth 32))
      ((trapStartCalls trapVa).map BuilderCall.instr) :=
  lists_calls (trapStartCalls trapVa) [.sMovImm32 108 0, .sMovImm32 109 0] rfl (by decide)

theorem lists_threadStart (numThread : Dword) :
    si.Lists (threadStart numThread) ((threadStartCalls numThread).map BuilderCall.instr) :=
  lists_calls (threadStartCalls numThread) (threadStartCalls 0) rfl (by decide)

theorem lists_fmaBody (ii2 : Nat) :
    si.Lists (fmaBody ii2) (List.replicate ii2 [fmaCall.instr]).flatten :=
  (lists_calls [fmaCall] [fmaCall] rfl (by decide)).replicate ii2

theorem lists_flopsBody (ii2 : Nat) :
    si.Lists (flopsBody ii2) (List.replicate ii2 [flopCall.instr]).flatten :=
  (lists_calls [flopCall] [flopCall] rfl (by decide)).replicate ii2

theorem lists_readBody (ii2 : Nat) : si.Lists (readBody ii2)
    (addressCall.instr :: (List.replicate ii2 (readCalls.map BuilderCall.instr)).flatten) :=
  (lists_calls [addressCall] [addressCall] rfl (by decide)).append
    ((lists_calls readCalls readCalls rfl (by decide)).replicate ii2)

theorem lists_writeBody (ii2 : Nat) : si.Lists (writeBody ii2)
    (addressCall.instr :: (List.replicate ii2 (writeCalls.map BuilderCall.instr)).flatten) :=
  (lists_calls [addressCall] [addressCall] rfl (by decide)).append
    ((lists_calls writeCalls writeCalls rfl (by decide)).replicate ii2)

theorem lists_mandelbrotSetup (args : MandelbrotArgs) :
    si.Lists (mandelbrotSetup args) ((mandelbrotSetupCalls args).map BuilderCall.instr) :=
  lists_calls (mandelbrotSetupCalls args) (mandelbrotSetupCalls ⟨0, 0, 0, 0, 0, 0, 0, 0, 0, 0, 0⟩)
    rfl (by decide)

theorem lists_mandelbrotRest (args : MandelbrotArgs) :
    si.Lists (mandelbrotRest args) ((mandelbrotRestCalls args).map BuilderCall.instr) :=
  lists_calls (mandelbrotRestCalls args) (mandelbrotRestCalls ⟨0, 0, 0, 0, 0, 0, 0, 0, 0, 0, 0⟩)
    rfl (by decide)

theorem lists_mandelbrotTest : si.Lists
    (vCmpxGtF32 12 255 ++ [0x41C80000] ++ (sCbranchExecz 3 ++ (sCmpLtI32 8 255 ++ [0x4FF])))
    mandelbrotTestInstrs := by
  have compare : si.Lists (vCmpxGtF32 12 255 ++ [0x41C80000])
      [⟨.vopc, SqOp.vCmpxGtF32, [12, 255], [], some 0x41C80000⟩] := by
    constructor
    · intro i member
      obtain rfl := List.mem_singleton.mp member
      exact legal_literal (i := ⟨.vopc, SqOp.vCmpxGtF32, [12, 255], [], none⟩) 0x41C80000
        trivial (by decide) (by decide) (by decide) (by decide)
    · rw [vCmpxGtF32, compareWord_nine (by decide) (by decide)]
      rfl
  have count : si.Lists (sCmpLtI32 8 255 ++ [0x4FF])
      [⟨.sopc, SqOp.sCmpLtI32, [8, 255], [], some 0x4FF⟩] := by
    constructor
    · intro i member
      obtain rfl := List.mem_singleton.mp member
      exact legal_literal (i := ⟨.sopc, SqOp.sCmpLtI32, [8, 255], [], none⟩) 0x4FF
        trivial (by decide) (by decide) (by decide) (by decide)
    · rw [sCmpLtI32, sopc_eq (by decide) (by decide)]
      rfl
  exact compare.append ((lists_branch (by decide) 3).append count)

theorem lists_mandelbrotBody : si.Lists mandelbrotBody
    (mandelbrotBodyCalls.map BuilderCall.instr ++ mandelbrotTestInstrs) :=
  (lists_calls mandelbrotBodyCalls mandelbrotBodyCalls rfl (by decide)).append
    lists_mandelbrotTest

def memorySetupInstrs (va : BitVec 64) (numThread : Dword) : List (Instr SqFormat 32) :=
  clockStartCalls.map BuilderCall.instr ++
    (loadResourceCalls (integerResource va 16)).map BuilderCall.instr ++
    loopStartCalls.map BuilderCall.instr ++ (threadStartCalls numThread).map BuilderCall.instr

def memoryRestInstrs (va : BitVec 64) : List (Instr SqFormat 32) :=
  clockReadCalls.map BuilderCall.instr ++
    (loadResourceCalls (integerResource va 4)).map BuilderCall.instr ++
    clockStoreCalls.map BuilderCall.instr ++ [BuilderCall.sEndpgm.instr]

theorem lists_memorySetup (va : BitVec 64) (numThread : Dword) :
    si.Lists (memorySetup va numThread) (memorySetupInstrs va numThread) :=
  ((lists_clockStart.append (lists_loadResource _)).append lists_loopStart).append
    (lists_threadStart numThread)

theorem lists_memoryRest (va : BitVec 64) : si.Lists (memoryRest va) (memoryRestInstrs va) :=
  ((lists_clockRead.append (lists_loadResource _)).append lists_clockStore).append lists_sEndpgm

/-! ## Whole programs -/

/-- The program reads as the parts, with the loop and the branch where they are recorded. -/
structure LoopProgram.ReadsAs (l : LoopProgram) (setup loop rest : List (Instr SqFormat 32))
    (imm : BitVec 16) : Prop where
  lists : si.Lists l.words
    (setup ++ (loop ++ branchInstr SqOp.sCbranchScc0 imm :: rest))
  body : (setup.flatMap si.encode).length = l.body
  edge : (setup.flatMap si.encode).length + (loop.flatMap si.encode).length = l.edge
  branch : l.words[l.edge]? = some (branchWord SqOp.sCbranchScc0 imm)

theorem LoopProgram.readsAs_close {setup loop rest : List Dword}
    {setup' loop' rest' : List (Instr SqFormat 32)} (first : si.Lists setup setup')
    (second : si.Lists loop loop') (third : si.Lists rest rest') (distance : Int → Int → Int) :
    (close setup loop rest distance).ReadsAs setup' loop' rest'
      (.ofInt 16 (distance setup.length (setup ++ loop).length)) where
  lists := by
    have branch := @lists_branch SqOp.sCbranchScc0 (by decide)
      (.ofInt 16 (distance setup.length (setup ++ loop).length))
    have whole := first.append (second.append (branch.append third))
    rw [← List.append_assoc] at whole
    exact whole
  body := by rw [← first.encoded]; rfl
  edge := by
    rw [← first.encoded, ← second.encoded, ← List.length_append]
    rfl
  branch := LoopProgram.word_edge_close

section Close

variable {setup loop rest : List Dword} {distance : Int → Int → Int} {word : Dword}

theorem LoopProgram.length_close :
    (close setup loop rest distance).edge - (close setup loop rest distance).body =
      loop.length := by
  show (setup ++ loop).length - setup.length = loop.length
  rw [List.length_append, Nat.add_sub_cancel_left]

/-- The distance itself leads one dword too far. -/
theorem LoopProgram.target_ahead (label : ∀ eleje p, distance eleje p = eleje - p)
    (short : (close setup loop rest distance).edge - (close setup loop rest distance).body < 32768)
    (stands : (close setup loop rest distance).words[(close setup loop rest distance).edge]? =
      some word) :
    branchTarget (close setup loop rest distance).edge word =
      (close setup loop rest distance).body + 1 := by
  rw [length_close] at short
  exact target_of_distance label (Nat.le_of_lt short) stands

/-- One less leads back to the loop. -/
theorem LoopProgram.target_behind (label : ∀ eleje p, distance eleje p = eleje - p - 1)
    (short : (close setup loop rest distance).edge - (close setup loop rest distance).body < 32768)
    (stands : (close setup loop rest distance).words[(close setup loop rest distance).edge]? =
      some word) :
    branchTarget (close setup loop rest distance).edge word =
      (close setup loop rest distance).body := by
  rw [length_close] at short
  obtain ⟨word', stands', target⟩ := (returns_iff_of_behind label).mpr short
  obtain rfl := Option.some.inj (stands.symm.trans stands')
  exact target

end Close

namespace Generator

variable (args : KernelArgs) (ii2 : Nat)

/-- What a generator writes before its loop. -/
def setupInstrs : Generator → List (Instr SqFormat 32)
  | fma => clockStartCalls.map BuilderCall.instr ++ loopStartCalls.map BuilderCall.instr ++
      operandStartCalls.map BuilderCall.instr
  | flops => (trapStartCalls args.trapVa).map BuilderCall.instr ++
      clockStartCalls.map BuilderCall.instr ++ loopStartCalls.map BuilderCall.instr ++
      operandStartCalls.map BuilderCall.instr
  | read => memorySetupInstrs args.testVa 512
  | write => memorySetupInstrs args.testVa 256
  | mandelbrot => (mandelbrotSetupCalls args.image).map BuilderCall.instr

/-- The loop, without the branch back. -/
def loopInstrs : Generator → List (Instr SqFormat 32)
  | fma => (List.replicate ii2 [fmaCall.instr]).flatten ++ loopTestInstrs 1000
  | flops => (List.replicate ii2 [flopCall.instr]).flatten ++ loopTestInstrs 10000
  | read => addressCall.instr ::
      (List.replicate ii2 (readCalls.map BuilderCall.instr)).flatten ++ loopTestInstrs 1000
  | write => addressCall.instr ::
      (List.replicate ii2 (writeCalls.map BuilderCall.instr)).flatten ++ loopTestInstrs 1000
  | mandelbrot => mandelbrotBodyCalls.map BuilderCall.instr ++ mandelbrotTestInstrs

def restInstrs : Generator → List (Instr SqFormat 32)
  | fma => clockReadCalls.map BuilderCall.instr ++ clockStoreCalls.map BuilderCall.instr ++
      [BuilderCall.sEndpgm.instr]
  | flops => clockReadCalls.map BuilderCall.instr ++ clockStoreCalls.map BuilderCall.instr ++
      [BuilderCall.sEndpgm.instr] ++ [BuilderCall.sEndpgm.instr] ++ [BuilderCall.sEndpgm.instr]
  | mandelbrot => (mandelbrotRestCalls args.image).map BuilderCall.instr
  | _ => memoryRestInstrs args.dataVa

/-- What a program is read as. -/
def listing (g : Generator) (imm : BitVec 16) : List (Instr SqFormat 32) :=
  setupInstrs args g ++ (loopInstrs ii2 g ++
    branchInstr SqOp.sCbranchScc0 imm :: restInstrs args g)

theorem readsAs (g : Generator) : ∃ imm, (g.program args ii2).ReadsAs (setupInstrs args g)
    (loopInstrs ii2 g) (restInstrs args g) imm := by
  cases g with
  | fma =>
      have parts := LoopProgram.readsAs_close
        ((lists_clockStart.append lists_loopStart).append lists_operandStart)
        ((lists_fmaBody ii2).append (lists_loopTest 1000))
        ((lists_clockRead.append lists_clockStore).append lists_sEndpgm) (fun eleje p => eleje - p)
      exact ⟨_, parts⟩
  | flops =>
      have parts := LoopProgram.readsAs_close
        ((((lists_trapStart args.trapVa).append lists_clockStart).append lists_loopStart).append
          lists_operandStart)
        ((lists_flopsBody ii2).append (lists_loopTest 10000))
        ((((lists_clockRead.append lists_clockStore).append lists_sEndpgm).append
          lists_sEndpgm).append lists_sEndpgm) (fun eleje p => eleje - p)
      exact ⟨_, parts⟩
  | read =>
      have parts := LoopProgram.readsAs_close (lists_memorySetup args.testVa 512)
        ((lists_readBody ii2).append (lists_loopTest 1000)) (lists_memoryRest args.dataVa)
        (fun p₀ p => p₀ - 1 - p)
      exact ⟨_, parts⟩
  | write =>
      have parts := LoopProgram.readsAs_close (lists_memorySetup args.testVa 256)
        ((lists_writeBody ii2).append (lists_loopTest 1000)) (lists_memoryRest args.dataVa)
        (fun p₀ p => p₀ - 1 - p)
      exact ⟨_, parts⟩
  | mandelbrot =>
      have parts := LoopProgram.readsAs_close (lists_mandelbrotSetup args.image)
        lists_mandelbrotBody (lists_mandelbrotRest args.image) (fun eleje p => eleje - p - 1)
      exact ⟨_, parts⟩

/-! ## Where the branch goes -/

variable {args ii2}

/-- If the distance fits, the arithmetic kernels go one dword too far and the others return. -/
theorem branch_target {g : Generator} {word : Dword}
    (short : (g.program args ii2).edge - (g.program args ii2).body < 32768)
    (stands : (g.program args ii2).words[(g.program args ii2).edge]? = some word) :
    branchTarget (g.program args ii2).edge word =
      (g.program args ii2).body + if g = fma ∨ g = flops then 1 else 0 := by
  cases g with
  | fma => exact LoopProgram.target_ahead (fun _ _ => rfl) short stands
  | flops => exact LoopProgram.target_ahead (fun _ _ => rfl) short stands
  | read =>
      have behind (p₀ p : Int) : p₀ - 1 - p = p₀ - p - 1 := by omega
      exact (LoopProgram.target_behind behind short stands).trans (Int.add_zero _).symm
  | write =>
      have behind (p₀ p : Int) : p₀ - 1 - p = p₀ - p - 1 := by omega
      exact (LoopProgram.target_behind behind short stands).trans (Int.add_zero _).symm
  | mandelbrot =>
      exact (LoopProgram.target_behind (fun _ _ => rfl) short stands).trans (Int.add_zero _).symm

/-- The first instruction of the loop of a kernel. -/
theorem loopInstrs_head (g : Generator) : ∃ i more, loopInstrs ii2 g = i :: more ∧
    ((g = fma → (si.encode i).length = 2) ∧
      (g = flops → ((si.encode i).length = 1 ↔ 1 ≤ ii2))) := by
  cases g with
  | fma =>
      cases ii2 with
      | zero => exact ⟨_, _, rfl, fun _ => rfl, by simp⟩
      | succ n => exact ⟨_, _, rfl, fun _ => rfl, by simp⟩
  | flops =>
      cases ii2 with
      | zero => exact ⟨_, _, rfl, by simp, fun _ => iff_of_false (by decide) (by decide)⟩
      | succ n => exact ⟨_, _, rfl, by simp, fun _ => iff_of_true rfl (Nat.succ_pos n)⟩
  | read => exact ⟨_, _, rfl, by simp⟩
  | write => exact ⟨_, _, rfl, by simp⟩
  | mandelbrot => exact ⟨_, _, rfl, by simp⟩

theorem restInstrs_last (g : Generator) :
    (restInstrs args g).getLast? = some BuilderCall.sEndpgm.instr := by
  cases g with
  | mandelbrot => rfl
  | _ => simp [restInstrs, memoryRestInstrs]

end Generator

/-- **The kernels as instructions.** For every generator and all its arguments, the program is
read to its last dword as the instructions the generator called for: those before the loop, the
loop, the branch back with the displacement that was written, and the rest, which ends with
`s_endpgm`. The loop and the branch start instructions. If the loop has fewer than 2^15 dwords, the
branch goes to the start of an instruction except in the `fma` kernel, and in that of `main` with
an empty loop. -/
theorem program_reads (g : Generator) (args : KernelArgs) (ii2 : Nat) :
    ∃ imm : BitVec 16, (g.program args ii2).words[(g.program args ii2).edge]? =
        some (branchWord SqOp.sCbranchScc0 imm) ∧
      si.decode (g.program args ii2).words = some (g.listing args ii2 imm) ∧
      (g.listing args ii2 imm).getLast? = some BuilderCall.sEndpgm.instr ∧
      ((g.setupInstrs args).flatMap si.encode).length = (g.program args ii2).body ∧
      ((g.setupInstrs args ++ g.loopInstrs ii2).flatMap si.encode).length =
        (g.program args ii2).edge ∧
      ((g.program args ii2).edge - (g.program args ii2).body < 32768 → ∀ word,
        (g.program args ii2).words[(g.program args ii2).edge]? = some word →
          ((∃ t : Nat, branchTarget (g.program args ii2).edge word = t ∧
              si.Starts (g.listing args ii2 imm) t) ↔
            g ≠ .fma ∧ (g = .flops → 1 ≤ ii2))) := by
  obtain ⟨imm, reads⟩ := g.readsAs args ii2
  have body : si.Starts (g.listing args ii2 imm) (g.program args ii2).body :=
    ⟨_, _, rfl, reads.body⟩
  refine ⟨imm, reads.branch, reads.lists.decode, ?_, reads.body, ?_, fun short word stands => ?_⟩
  · rw [Generator.listing, List.getLast?_append, List.getLast?_append, List.getLast?_cons,
      Generator.restInstrs_last]
    rfl
  · rw [List.flatMap_append, List.length_append, reads.edge]
  · rw [Generator.branch_target short stands]
    obtain ⟨i, more, first, two, one⟩ := @Generator.loopInstrs_head ii2 g
    -- one dword too far is behind the first word of the loop
    have behind : si.Starts (g.listing args ii2 imm) ((g.program args ii2).body + 1) ↔
        (si.encode i).length = 1 := by
      rw [Generator.listing, first, List.cons_append, ← reads.body]
      exact Isa.starts_next_iff
    cases g with
    | fma =>
        refine iff_of_false ?_ (by simp)
        rintro ⟨t, target, starts⟩
        obtain rfl : (Generator.program .fma args ii2).body + 1 = t := by
          simp at target
          omega
        rw [behind, two rfl] at starts
        cases starts
    | flops =>
        have same : (1 ≤ ii2) ↔ Generator.flops ≠ .fma ∧ (Generator.flops = .flops → 1 ≤ ii2) := by
          simp
        rw [← same, ← one rfl, ← behind]
        constructor
        · rintro ⟨t, target, starts⟩
          obtain rfl : (Generator.program .flops args ii2).body + 1 = t := by
            simp at target
            omega
          exact starts
        · intro starts
          exact ⟨_, by simp, starts⟩
    | read => exact iff_of_true ⟨_, by simp, body⟩ (by simp)
    | write => exact iff_of_true ⟨_, by simp, body⟩ (by simp)
    | mandelbrot => exact iff_of_true ⟨_, by simp, body⟩ (by simp)

/-- With the repetition count it is built with, the `fma` kernel branches into an instruction. -/
theorem program_reads_fma :
    ∃ args imm, si.decode (Generator.fma.program args 1024).words =
        some (Generator.fma.listing args 1024 imm) ∧
      ∃ word, (Generator.fma.program args 1024).words[(Generator.fma.program args 1024).edge]? =
          some word ∧
        ¬ ∃ t : Nat, branchTarget (Generator.fma.program args 1024).edge word = t ∧
          si.Starts (Generator.fma.listing args 1024 imm) t := by
  obtain ⟨args⟩ : Nonempty KernelArgs := ⟨⟨0, 0, 0, ⟨0, 0, 0, 0, 0, 0, 0, 0, 0, 0, 0⟩⟩⟩
  obtain ⟨imm, stands, read, -, -, -, branch⟩ := program_reads .fma args 1024
  have short : (Generator.fma.program args 1024).edge -
      (Generator.fma.program args 1024).body < 32768 := by
    rw [Generator.program, fmaProgram, LoopProgram.length_close, List.length_append, fmaBody,
      length_unrolled]
    decide
  exact ⟨args, imm, read, _, stands, fun target => ((branch short _ stands).mp target).1 rfl⟩

end RadeonsiCompute
