import RadeonsiCompute.Cs.Submit
import RadeonsiCompute.Dispatch.Registers

/-!
# Dispatches, as the code computes them

`compute_emit_compute_state_manual_relocs` of `computesi.c`: the register
writes of a compute state, its user data, a cache flush and the launch. The
fields of the state are C `int`s, kept as their bits.
-/

namespace RadeonsiCompute

open Lib

/-- A C `int`, as its bits. -/
abbrev CInt := BitVec 32

instance neZero_three : NeZero 3 := ⟨by decide⟩

/-- `struct compute_state`. -/
@[ext] structure ComputeState where
  id : CInt
  userData : Fin 16 → Dword
  userDataLength : CInt
  dim : Fin 3 → CInt
  start : Fin 3 → CInt
  numThread : Fin 3 → CInt
  sgprNum : CInt
  vgprNum : CInt
  priority : CInt
  debugMode : CInt
  privMode : CInt
  trapEn : CInt
  ieeeMode : CInt
  scratchEn : CInt
  ldsSize : CInt
  excpEn : CInt
  wavesPerSh : CInt
  threadGroupsPerCu : CInt
  lockThreshold : CInt
  simdDestCntl : CInt
  se0Sh0CuEn : CInt
  se0Sh1CuEn : CInt
  se1Sh0CuEn : CInt
  se1Sh1CuEn : CInt
  tmpringWaves : CInt
  tmpringWavesize : CInt
  binary : BufPtr

/-- The offset of a register in a `SET_SH_REG` packet. -/
def shRegIndex (reg : Dword) : Dword := (reg - siShRegOffset) >>> 2

/-- `set_compute_reg`. -/
def setComputeReg (reg val : Dword) : Except Fault (List Dword) := do
  assertThat (reg ≥ siShRegOffset ∧ reg ≤ siShRegEnd)
    "reg >= SI_SH_REG_OFFSET && reg <= SI_SH_REG_END"
  .ok [pkt3c pkt3SetShReg 1 0, shRegIndex reg, val]

/-- Several `set_compute_reg`, one after the other. -/
def setComputeRegs : List (Dword × Dword) → Except Fault (List Dword)
  | [] => .ok []
  | (reg, val) :: rest => do
      let first ← setComputeReg reg val
      let later ← setComputeRegs rest
      .ok (first ++ later)

namespace ComputeState

/-- The value of `COMPUTE_PGM_RSRC1`. -/
def pgmRsrc1 (state : ComputeState) : Dword :=
  PgmRsrc1.vgprs.set state.vgprNum ||| PgmRsrc1.sgprs.set state.sgprNum |||
    PgmRsrc1.priority.set state.priority ||| PgmRsrc1.floatMode.set 0 |||
    PgmRsrc1.priv.set state.privMode ||| PgmRsrc1.dx10Clamp.set 0 |||
    PgmRsrc1.debugMode.set state.debugMode ||| PgmRsrc1.ieeeMode.set state.ieeeMode

/-- The value of `COMPUTE_PGM_RSRC2`. -/
def pgmRsrc2 (state : ComputeState) : Dword :=
  PgmRsrc2.scratchEn.set state.scratchEn ||| PgmRsrc2.userSgpr.set state.userDataLength |||
    PgmRsrc2.trapEn.set state.trapEn ||| PgmRsrc2.tgidXEn.set 1 ||| PgmRsrc2.tgidYEn.set 1 |||
    PgmRsrc2.tgidZEn.set 1 ||| PgmRsrc2.tgSizeEn.set 1 ||| PgmRsrc2.tidigCompCnt.set 0 |||
    PgmRsrc2.ldsSize.set state.ldsSize ||| PgmRsrc2.excpEn.set state.excpEn

/-- The value of `COMPUTE_RESOURCE_LIMITS`. -/
def resourceLimits (state : ComputeState) : Dword :=
  ResourceLimits.wavesPerSh.set state.wavesPerSh |||
    ResourceLimits.tgPerCu.set state.threadGroupsPerCu |||
    ResourceLimits.lockThreshold.set state.lockThreshold |||
    ResourceLimits.simdDestCntl.set state.simdDestCntl

/-- The value of `COMPUTE_STATIC_THREAD_MGMT_SE0`. -/
def staticThreadMgmtSe0 (state : ComputeState) : Dword :=
  StaticThreadMgmt.sh0CuEn.set state.se0Sh0CuEn ||| StaticThreadMgmt.sh1CuEn.set state.se0Sh1CuEn

/-- The value of `COMPUTE_STATIC_THREAD_MGMT_SE1`. -/
def staticThreadMgmtSe1 (state : ComputeState) : Dword :=
  StaticThreadMgmt.sh0CuEn.set state.se1Sh0CuEn ||| StaticThreadMgmt.sh1CuEn.set state.se1Sh1CuEn

/-- The registers a state is written to, in order. `va` is the address of its binary. -/
def registers (state : ComputeState) (va : BitVec 64) : List (Dword × Dword) :=
  [(Reg.computeDimX, state.dim 0),
    (Reg.computeDimY, state.dim 1),
    (Reg.computeDimZ, state.dim 2),
    (Reg.computeStartX, state.start 0),
    (Reg.computeStartY, state.start 1),
    (Reg.computeStartZ, state.start 2),
    (Reg.computeNumThreadX, NumThread.full.set (state.numThread 0)),
    (Reg.computeNumThreadY, NumThread.full.set (state.numThread 1)),
    (Reg.computeNumThreadZ, NumThread.full.set (state.numThread 2)),
    (Reg.computeMaxWaveId, MaxWaveId.maxWaveId.set 0xF00),
    (Reg.computePgmLo, (va >>> 8).setWidth 32),
    (Reg.computePgmHi, (va >>> 40).setWidth 32),
    (Reg.computePgmRsrc1, state.pgmRsrc1),
    (Reg.computePgmRsrc2, state.pgmRsrc2),
    (Reg.computeResourceLimits, state.resourceLimits),
    (Reg.computeStaticThreadMgmtSe0, state.staticThreadMgmtSe0),
    (Reg.computeStaticThreadMgmtSe1, state.staticThreadMgmtSe1)]

/-- The dwords of `user_data` the loop copies. The array has 16. -/
def userDataDwords (state : ComputeState) : Except Fault (List Dword) :=
  -- a negative length is no round of the loop
  let count := state.userDataLength.toInt.toNat
  if count ≤ 16 then .ok ((List.ofFn state.userData).take count) else .error .outOfBounds

/-- The packet with the user data, if there is any. -/
def userDataBuf (state : ComputeState) : Except Fault (List Dword) :=
  if state.userDataLength ≠ 0 then do
    let data ← state.userDataDwords
    .ok (pkt3c pkt3SetShReg state.userDataLength 0 :: shRegIndex Reg.computeUserData0 :: data)
  else .ok []

end ComputeState

/-- The cache flush. -/
def cacheFlushBuf : List Dword :=
  [pkt3c pkt3SurfaceSync 3 0,
    CpCoherCntl.tcl1ActionEna.set 1 ||| CpCoherCntl.shIcacheActionEna.set 1 |||
      CpCoherCntl.shKcacheActionEna.set 1 ||| CpCoherCntl.tcActionEna.set 1,
    0xffffffff, 0, 0xA]

/-- The value that launches. -/
def dispatchInitiator : Dword :=
  DispatchInitiator.computeShaderEn.set 1 ||| DispatchInitiator.partialTgEn.set 0 |||
    DispatchInitiator.forceStartAt000.set 0 ||| DispatchInitiator.orderedAppendEnbl.set 0

/-- What `compute_emit_compute_state_manual_relocs` puts in `buf`. -/
def computeStateBuf (state : ComputeState) (va : BitVec 64) : Except Fault (List Dword) := do
  let registers ← setComputeRegs (state.registers va)
  let userData ← state.userDataBuf
  let launch ← setComputeRegs
    [(Reg.computeDispatchInitiator, dispatchInitiator), (Reg.computeDispatchInitiator, 0)]
  .ok (registers ++ userData ++ cacheFlushBuf ++ launch)

def computeEmitComputeStateManualRelocs {κ : Type} (drm : CsDrm κ) (h : Heap) (ctx : Addr)
    (state : ComputeState) (crelocs : List CsRelocGem) (w : CsWorld κ) :
    Except Fault (Int × CsWorld κ) := do
  let binary ← h.loadBuffer state.binary
  let buf ← computeStateBuf state (.ofNat 64 binary.va)
  let c ← h.contexts.load ctx
  .ok (w.submit drm c.fd (radeonCs radeonCsRingCompute crelocs buf state.id))

end RadeonsiCompute
