import RadeonsiCompute.Dispatch.Code
import RadeonsiCompute.Lib.Writes

/-!
# What the command processor makes of a dispatch

Executing a packet is a list of events: the register writes of `SET_SH_REG`,
each to the next register, and the cache flush of `SURFACE_SYNC`. The stream of
a dispatch parses as packets and executes as the writes of the state, the
flush, and the launch, whatever the state holds.
-/

namespace RadeonsiCompute

open Lib

inductive CpEvent
  | setShReg (reg : Nat) (value : Dword)
  | surfaceSync (coherCntl coherSize coherBase pollInterval : Dword)
  deriving DecidableEq, Repr

/-- What a packet does. -/
def Packet.events (p : Packet) : Option (List CpEvent) :=
  if p.opcode = pkt3SetShReg then
    match p.body with
    | [] => none
    | index :: values => some
        (values.mapIdx fun i value => .setShReg (siShRegOffset.toNat + 4 * (index.toNat + i)) value)
  else if p.opcode = pkt3SurfaceSync then
    match p.body with
    | [coherCntl, coherSize, coherBase, pollInterval] =>
        some [.surfaceSync coherCntl coherSize coherBase pollInterval]
    | _ => none
  else none

/-- What a stream does, if it is a sequence of such packets. -/
def cpEvents (stream : List Dword) : Option (List CpEvent) :=
  (parsePackets stream).bind fun packets => (packets.mapM Packet.events).map List.flatten

/-- The registers an event writes. -/
def CpEvent.writes : CpEvent → List (Nat × Dword)
  | .setShReg reg value => [(reg, value)]
  | .surfaceSync .. => []

/-- The registers after the events. -/
def runEvents (events : List CpEvent) (regs : Nat → Dword) : Nat → Dword :=
  applyWrites (events.flatMap CpEvent.writes) regs

theorem cpEvents_nil : cpEvents [] = some [] := by
  rw [cpEvents, parsePackets]
  rfl

/-- Streams are executed one after the other. -/
theorem cpEvents_append {s s' : List Dword} {es es' : List CpEvent}
    (first : cpEvents s = some es) (second : cpEvents s' = some es') :
    cpEvents (s ++ s') = some (es ++ es') := by
  obtain ⟨ps, parsed, executed⟩ := Option.bind_eq_some_iff.mp first
  obtain ⟨ps', parsed', executed'⟩ := Option.bind_eq_some_iff.mp second
  obtain ⟨ess, run, rfl⟩ := Option.map_eq_some_iff.mp executed
  obtain ⟨ess', run', rfl⟩ := Option.map_eq_some_iff.mp executed'
  rw [← dwords_of_parsePackets parsed, ← dwords_of_parsePackets parsed', ← List.flatMap_append,
    cpEvents, parsePackets_dwords, Option.bind_some, List.mapM_append, run, run']
  exact congrArg some List.flatten_append

/-- A single packet. -/
theorem cpEvents_packet {p : Packet} {es : List CpEvent} (run : p.events = some es) :
    cpEvents p.dwords = some es := by
  have parsed := parsePackets_dwords [p]
  rw [List.flatMap_singleton] at parsed
  rw [cpEvents, parsed, Option.bind_some, List.mapM_cons, run]
  exact congrArg some (List.append_nil es)

theorem runEvents_append (es es' : List CpEvent) (regs : Nat → Dword) :
    runEvents (es ++ es') regs = runEvents es' (runEvents es regs) := by
  rw [runEvents, List.flatMap_append, applyWrites_append]
  rfl

/-! ## Register writes -/

/-- A register that `set_compute_reg` accepts and a packet can name. -/
def ShReg (reg : Dword) : Prop :=
  (reg ≥ siShRegOffset ∧ reg ≤ siShRegEnd) ∧ reg.toNat % 4 = 0

instance (reg : Dword) : Decidable (ShReg reg) := inferInstanceAs (Decidable (_ ∧ _))

/-- The index of a register leads back to it. -/
theorem shRegIndex_toNat {reg : Dword} (named : ShReg reg) :
    siShRegOffset.toNat + 4 * (shRegIndex reg).toNat = reg.toNat := by
  obtain ⟨⟨lo, hi⟩, dword⟩ := named
  have low : siShRegOffset.toNat ≤ reg.toNat := lo
  have base : siShRegOffset.toNat = 45056 := rfl
  rw [shRegIndex, BitVec.toNat_ushiftRight, Nat.shiftRight_eq_div_pow, BitVec.toNat_sub_of_le lo]
  omega

/-- The packet of one register write. -/
def setRegPacket (reg val : Dword) : Packet :=
  .compute pkt3SetShReg 1 [shRegIndex reg, val]
    (show 2 = (1 &&& 0x3FFF : Dword).toNat + 1 by decide)

theorem setRegPacket_events {reg val : Dword} (named : ShReg reg) :
    (setRegPacket reg val).events = some [.setShReg reg.toNat val] := by
  have opcode : (setRegPacket reg val).opcode = pkt3SetShReg :=
    (pkt3c_opcode _ _).trans (by decide)
  have index := shRegIndex_toNat named
  rw [Packet.events, if_pos opcode]
  show some [CpEvent.setShReg (siShRegOffset.toNat + 4 * ((shRegIndex reg).toNat + 0)) val] = _
  rw [Nat.add_zero, index]

/-- Register writes are emitted, and executed as such. -/
theorem setComputeRegs_spec (writes : List (Dword × Dword)) : (∀ w ∈ writes, ShReg w.1) →
    ∃ buf, setComputeRegs writes = .ok buf ∧ buf.length = 3 * writes.length ∧
      cpEvents buf = some (writes.map fun w => .setShReg w.1.toNat w.2) := by
  induction writes with
  | nil => intro _; exact ⟨[], rfl, rfl, cpEvents_nil⟩
  | cons w writes ih =>
      intro named
      obtain ⟨buf, emitted, length, events⟩ := ih fun w' later =>
        named w' (List.mem_cons_of_mem _ later)
      have here := named w List.mem_cons_self
      refine ⟨(setRegPacket w.1 w.2).dwords ++ buf, ?_, ?_, ?_⟩
      · rw [setComputeRegs, setComputeReg, assertThat_ok here.1, emitted]
        rfl
      · rw [List.length_append, length, List.length_cons]
        show 3 + _ = _
        omega
      · exact cpEvents_append (cpEvents_packet (setRegPacket_events here)) events

/-! ## User data and cache flush -/

/-- The writes of the user data, to consecutive registers. -/
def ComputeState.userDataEvents (state : ComputeState) : List CpEvent :=
  ((List.ofFn state.userData).take state.userDataLength.toNat).mapIdx fun i value =>
    .setShReg (Reg.computeUserData0.toNat + 4 * i) value

theorem ComputeState.userDataLength_toInt {state : ComputeState}
    (few : state.userDataLength.toNat ≤ 16) :
    state.userDataLength.toInt.toNat = state.userDataLength.toNat := by
  rw [BitVec.toInt_eq_toNat_of_lt (by omega)]
  exact Int.toNat_natCast _

/-- User data that fits is emitted, and executed as such. -/
theorem userDataBuf_spec {state : ComputeState} (few : state.userDataLength.toNat ≤ 16) :
    ∃ buf, state.userDataBuf = .ok buf ∧ buf.length ≤ 18 ∧
      cpEvents buf = some state.userDataEvents := by
  have length : ((List.ofFn state.userData).take state.userDataLength.toNat).length =
      state.userDataLength.toNat := by
    rw [List.length_take_of_le]
    rw [List.length_ofFn]
    exact few
  have count := ComputeState.userDataLength_toInt few
  by_cases none : state.userDataLength = 0
  · refine ⟨[], by rw [ComputeState.userDataBuf, if_neg (not_not_intro none)], by simp, ?_⟩
    rw [ComputeState.userDataEvents, none]
    exact cpEvents_nil
  · have data : state.userDataDwords =
        .ok ((List.ofFn state.userData).take state.userDataLength.toNat) := by
      rw [ComputeState.userDataDwords, count]
      exact if_pos few
    have masked : (state.userDataLength &&& 0x3FFF).toNat = state.userDataLength.toNat := by
      have ones : (0x3FFF : Dword).toNat = 2 ^ 14 - 1 := by decide
      rw [BitVec.toNat_and, ones, Nat.and_two_pow_sub_one_eq_mod, Nat.mod_eq_of_lt (by omega)]
    let p : Packet := .compute pkt3SetShReg state.userDataLength
      (shRegIndex Reg.computeUserData0 :: (List.ofFn state.userData).take
        state.userDataLength.toNat) (by rw [List.length_cons, length, masked])
    have opcode : p.opcode = pkt3SetShReg := (pkt3c_opcode _ _).trans (by decide)
    have index : ∀ i, siShRegOffset.toNat + 4 * ((shRegIndex Reg.computeUserData0).toNat + i) =
        Reg.computeUserData0.toNat + 4 * i := by
      intro i
      have first := @shRegIndex_toNat Reg.computeUserData0 (by decide)
      omega
    have events : p.events = some state.userDataEvents := by
      rw [Packet.events, if_pos opcode, ComputeState.userDataEvents]
      simp only [p, Packet.compute, index]
    refine ⟨p.dwords, ?_, ?_, cpEvents_packet events⟩
    · rw [ComputeState.userDataBuf, if_pos none, data]
      rfl
    · show ((List.ofFn state.userData).take state.userDataLength.toNat).length + 1 + 1 ≤ 18
      omega

/-- The caches a dispatch flushes. -/
def cacheFlush : CpEvent :=
  .surfaceSync (CpCoherCntl.tcl1ActionEna.set 1 ||| CpCoherCntl.shIcacheActionEna.set 1 |||
    CpCoherCntl.shKcacheActionEna.set 1 ||| CpCoherCntl.tcActionEna.set 1) 0xffffffff 0 0xA

theorem cacheFlushBuf_events : cpEvents cacheFlushBuf = some [cacheFlush] := by
  let p : Packet := .compute pkt3SurfaceSync 3 cacheFlushBuf.tail
    (show 4 = (3 &&& 0x3FFF : Dword).toNat + 1 by decide)
  have opcode : p.opcode = pkt3SurfaceSync := (pkt3c_opcode _ _).trans (by decide)
  have other : ¬ p.opcode = pkt3SetShReg := by
    rw [opcode]
    decide
  have events : p.events = some [cacheFlush] := by
    rw [Packet.events, if_neg other, if_pos opcode]
    rfl
  exact cpEvents_packet events

/-! ## The whole stream -/

/-- The events of a dispatch before the flush. -/
def ComputeState.setup (state : ComputeState) (va : BitVec 64) : List CpEvent :=
  ((state.registers va).map fun w => .setShReg w.1.toNat w.2) ++ state.userDataEvents

/-- The launch: a write that starts the shader and one that clears it. -/
def launchEvents : List CpEvent :=
  [.setShReg Reg.computeDispatchInitiator.toNat dispatchInitiator,
    .setShReg Reg.computeDispatchInitiator.toNat 0]

/-- The registers of a dispatch do not depend on the state. -/
def dispatchRegs : List Dword :=
  [Reg.computeDimX, Reg.computeDimY, Reg.computeDimZ, Reg.computeStartX, Reg.computeStartY,
    Reg.computeStartZ, Reg.computeNumThreadX, Reg.computeNumThreadY, Reg.computeNumThreadZ,
    Reg.computeMaxWaveId, Reg.computePgmLo, Reg.computePgmHi, Reg.computePgmRsrc1,
    Reg.computePgmRsrc2, Reg.computeResourceLimits, Reg.computeStaticThreadMgmtSe0,
    Reg.computeStaticThreadMgmtSe1]

theorem registers_fst (state : ComputeState) (va : BitVec 64) :
    (state.registers va).map Prod.fst = dispatchRegs := rfl

theorem registers_mem {state : ComputeState} {va : BitVec 64} {w : Dword × Dword}
    (member : w ∈ state.registers va) : w.1 ∈ dispatchRegs := by
  rw [← registers_fst state va]
  exact List.mem_map_of_mem member

/-- They are below the user data, and none is the initiator. -/
theorem dispatchRegs_mem {reg : Dword} (member : reg ∈ dispatchRegs) :
    ShReg reg ∧ Reg.computeDispatchInitiator.toNat < reg.toNat ∧
      reg.toNat < Reg.computeUserData0.toNat := by
  have all : dispatchRegs.all (fun reg => decide (ShReg reg ∧
      Reg.computeDispatchInitiator.toNat < reg.toNat ∧
        reg.toNat < Reg.computeUserData0.toNat)) = true := by decide
  exact of_decide_eq_true (List.all_eq_true.mp all reg member)

/-- **The stream of a dispatch** is its setup, the flush and the launch. -/
theorem computeStateBuf_spec {state : ComputeState} (few : state.userDataLength.toNat ≤ 16)
    (va : BitVec 64) : ∃ buf, computeStateBuf state va = .ok buf ∧ buf.length ≤ 1024 ∧
      cpEvents buf = some (state.setup va ++ cacheFlush :: launchEvents) := by
  obtain ⟨registers, emitted, length, events⟩ := setComputeRegs_spec (state.registers va)
    fun w member => (dispatchRegs_mem (registers_mem member)).1
  obtain ⟨userData, emitted', short, events'⟩ := userDataBuf_spec few
  obtain ⟨launch, emitted'', length'', events''⟩ := setComputeRegs_spec
    [(Reg.computeDispatchInitiator, dispatchInitiator), (Reg.computeDispatchInitiator, 0)]
    (by
      intro w member
      have reg : w.1 = Reg.computeDispatchInitiator := by
        rcases List.mem_cons.mp member with rfl | later
        · rfl
        · rw [List.mem_singleton.mp later]
      rw [reg]
      decide)
  refine ⟨registers ++ userData ++ cacheFlushBuf ++ launch, ?_, ?_, ?_⟩
  · rw [computeStateBuf, emitted, emitted', emitted'']
    rfl
  · have few : (state.registers va).length = 17 := rfl
    have flush : cacheFlushBuf.length = 5 := rfl
    rw [few] at length
    simp only [List.length_append, length, length'', flush, List.length_cons, List.length_nil]
    omega
  · have whole := cpEvents_append (cpEvents_append (cpEvents_append events events')
      cacheFlushBuf_events) events''
    rw [whole, List.append_assoc]
    rfl

end RadeonsiCompute
