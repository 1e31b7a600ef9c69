import RadeonsiCompute.Dispatch.Stream

/-!
# A dispatch programs the requested state

After the setup of a dispatch each register holds what was written to it, and
each field of a packed register reads what was packed into it. For a state
whose fields fit their registers that is the state itself, and the launch comes
after all of it and after the cache flush.
-/

namespace RadeonsiCompute

open Lib

/-- The packed registers and their fields. -/
def packedLayout : List (Dword × List (Field 32)) :=
  [(Reg.computeNumThreadX, [NumThread.full]),
    (Reg.computeNumThreadY, [NumThread.full]),
    (Reg.computeNumThreadZ, [NumThread.full]),
    (Reg.computePgmRsrc1,
      [PgmRsrc1.vgprs, PgmRsrc1.sgprs, PgmRsrc1.priority, PgmRsrc1.floatMode, PgmRsrc1.priv,
        PgmRsrc1.dx10Clamp, PgmRsrc1.debugMode, PgmRsrc1.ieeeMode]),
    (Reg.computePgmRsrc2,
      [PgmRsrc2.scratchEn, PgmRsrc2.userSgpr, PgmRsrc2.trapEn, PgmRsrc2.tgidXEn,
        PgmRsrc2.tgidYEn, PgmRsrc2.tgidZEn, PgmRsrc2.tgSizeEn, PgmRsrc2.tidigCompCnt,
        PgmRsrc2.ldsSize, PgmRsrc2.excpEn]),
    (Reg.computeResourceLimits,
      [ResourceLimits.wavesPerSh, ResourceLimits.tgPerCu, ResourceLimits.lockThreshold,
        ResourceLimits.simdDestCntl]),
    (Reg.computeStaticThreadMgmtSe0, [StaticThreadMgmt.sh0CuEn, StaticThreadMgmt.sh1CuEn]),
    (Reg.computeStaticThreadMgmtSe1, [StaticThreadMgmt.sh0CuEn, StaticThreadMgmt.sh1CuEn])]

/-- The fields of a register do not overlap. -/
theorem packedLayout_apart : ∀ r ∈ packedLayout, r.2.Pairwise Field.Apart := by
  have all : packedLayout.all (fun r => decide (r.2.Pairwise Field.Apart)) = true := by decide
  exact fun r member => of_decide_eq_true (List.all_eq_true.mp all r member)

namespace ComputeState

/-- The packed registers of a state, field by field. -/
def packed (state : ComputeState) : List (Dword × List (Field 32 × CInt)) :=
  [(Reg.computeNumThreadX, [(NumThread.full, state.numThread 0)]),
    (Reg.computeNumThreadY, [(NumThread.full, state.numThread 1)]),
    (Reg.computeNumThreadZ, [(NumThread.full, state.numThread 2)]),
    (Reg.computePgmRsrc1,
      [(PgmRsrc1.vgprs, state.vgprNum), (PgmRsrc1.sgprs, state.sgprNum),
        (PgmRsrc1.priority, state.priority), (PgmRsrc1.floatMode, 0),
        (PgmRsrc1.priv, state.privMode), (PgmRsrc1.dx10Clamp, 0),
        (PgmRsrc1.debugMode, state.debugMode), (PgmRsrc1.ieeeMode, state.ieeeMode)]),
    (Reg.computePgmRsrc2,
      [(PgmRsrc2.scratchEn, state.scratchEn), (PgmRsrc2.userSgpr, state.userDataLength),
        (PgmRsrc2.trapEn, state.trapEn), (PgmRsrc2.tgidXEn, 1), (PgmRsrc2.tgidYEn, 1),
        (PgmRsrc2.tgidZEn, 1), (PgmRsrc2.tgSizeEn, 1), (PgmRsrc2.tidigCompCnt, 0),
        (PgmRsrc2.ldsSize, state.ldsSize), (PgmRsrc2.excpEn, state.excpEn)]),
    (Reg.computeResourceLimits,
      [(ResourceLimits.wavesPerSh, state.wavesPerSh),
        (ResourceLimits.tgPerCu, state.threadGroupsPerCu),
        (ResourceLimits.lockThreshold, state.lockThreshold),
        (ResourceLimits.simdDestCntl, state.simdDestCntl)]),
    (Reg.computeStaticThreadMgmtSe0,
      [(StaticThreadMgmt.sh0CuEn, state.se0Sh0CuEn),
        (StaticThreadMgmt.sh1CuEn, state.se0Sh1CuEn)]),
    (Reg.computeStaticThreadMgmtSe1,
      [(StaticThreadMgmt.sh0CuEn, state.se1Sh0CuEn),
        (StaticThreadMgmt.sh1CuEn, state.se1Sh1CuEn)])]

variable (state : ComputeState) (va : BitVec 64)

theorem packed_layout :
    state.packed.map (fun r => (r.1, r.2.map Prod.fst)) = packedLayout := rfl

theorem packed_apart : ∀ r ∈ state.packed, Field.AllApart r.2 := by
  intro r member
  refine packedLayout_apart (r.1, r.2.map Prod.fst) ?_
  rw [← state.packed_layout]
  exact List.mem_map_of_mem member

/-- The code writes the packed registers. -/
theorem packed_mem : ∀ r ∈ state.packed, (r.1, Field.pack r.2) ∈ state.registers va := by
  have values : state.packed.map (fun r => (r.1, Field.pack r.2)) =
      [6, 7, 8, 12, 13, 14, 15, 16].map fun k => (state.registers va).getD k (0, 0) := by
    simp only [packed, List.map_cons, List.map_nil, Field.pack, List.foldr_cons, List.foldr_nil,
      BitVec.or_zero, registers, List.getD_cons_succ, List.getD_cons_zero, pgmRsrc1, pgmRsrc2,
      resourceLimits, staticThreadMgmtSe0, staticThreadMgmtSe1, BitVec.or_assoc]
  have places : ∀ k ∈ [6, 7, 8, 12, 13, 14, 15, 16], k < 17 := by decide
  intro r member
  have listed : (r.1, Field.pack r.2) ∈ state.packed.map fun r => (r.1, Field.pack r.2) :=
    List.mem_map_of_mem member
  rw [values] at listed
  obtain ⟨k, place, same⟩ := List.mem_map.mp listed
  have inside : k < (state.registers va).length := places k place
  rw [← same, List.getD_eq_getElem?_getD, List.getElem?_eq_getElem inside, Option.getD_some]
  exact List.getElem_mem inside

/-! ## The registers after the setup -/

/-- The writes of the user data. -/
def userDataWrites : List (Nat × Dword) :=
  ((List.ofFn state.userData).take state.userDataLength.toNat).mapIdx fun i value =>
    (Reg.computeUserData0.toNat + 4 * i, value)

theorem setup_writes : (state.setup va).flatMap CpEvent.writes =
    ((state.registers va).map fun w => (w.1.toNat, w.2)) ++ state.userDataWrites := by
  rw [setup, List.flatMap_append, List.flatMap_map, userDataEvents, userDataWrites]
  congr 1
  rw [List.mapIdx_eq_zipIdx_map, List.mapIdx_eq_zipIdx_map, List.flatMap_map]
  exact List.map_eq_flatMap.symm

/-- The setup writes no register twice. -/
theorem setup_distinct : (((state.setup va).flatMap CpEvent.writes).map Prod.fst).Nodup := by
  have regs : ((state.registers va).map fun w => (w.1.toNat, w.2)).map Prod.fst =
      dispatchRegs.map BitVec.toNat := rfl
  have userData : state.userDataWrites.map Prod.fst =
      (List.range' 0 ((List.ofFn state.userData).take state.userDataLength.toNat).length).map
        fun i => Reg.computeUserData0.toNat + 4 * i := by
    rw [userDataWrites, List.mapIdx_eq_zipIdx_map, List.map_map, ← List.zipIdx_map_snd 0,
      List.map_map]
    rfl
  rw [setup_writes, List.map_append, regs, userData, List.nodup_append]
  refine ⟨by decide, ?_, ?_⟩
  · refine List.Nodup.map ?_ List.nodup_range'
    intro i j same
    dsimp only at same
    omega
  · intro a early b late same
    obtain ⟨reg, listed, rfl⟩ := List.mem_map.mp early
    obtain ⟨i, -, rfl⟩ := List.mem_map.mp late
    have below := (dispatchRegs_mem listed).2.2
    omega

variable {state va} (regs : Nat → Dword)

/-- Each register of the state holds what was written to it. -/
theorem setup_register {w : Dword × Dword} (member : w ∈ state.registers va) :
    runEvents (state.setup va) regs w.1.toNat = w.2 := by
  refine applyWrites_of_mem (state.setup_distinct va) ?_
  rw [setup_writes]
  exact List.mem_append_left _ (List.mem_map_of_mem (f := fun w => (w.1.toNat, w.2)) member)

/-- Each user data register holds its dword. -/
theorem setup_userData (i : Fin 16) (used : i.val < state.userDataLength.toNat) :
    runEvents (state.setup va) regs (Reg.computeUserData0.toNat + 4 * i) = state.userData i := by
  refine applyWrites_of_mem (state.setup_distinct va) ?_
  rw [setup_writes]
  refine List.mem_append_right _ ?_
  have inside : i.val < state.userDataWrites.length := by
    rw [userDataWrites, List.length_mapIdx, List.length_take, List.length_ofFn]
    omega
  have here : state.userDataWrites[i.val] =
      (Reg.computeUserData0.toNat + 4 * i.val, state.userData i) := by
    simp only [userDataWrites, List.getElem_mapIdx, List.getElem_take, List.getElem_ofFn]
  rw [← here]
  exact List.getElem_mem inside

end ComputeState

/-- The registers hold what a dispatch of the state writes. -/
structure Dispatched (regs : Nat → Dword) (state : ComputeState) (va : BitVec 64) : Prop where
  register : ∀ w ∈ state.registers va, regs w.1.toNat = w.2
  userData : ∀ i : Fin 16, i.val < state.userDataLength.toNat →
    regs (Reg.computeUserData0.toNat + 4 * i) = state.userData i

theorem ComputeState.setup_dispatched (state : ComputeState) (va : BitVec 64)
    (regs : Nat → Dword) : Dispatched (runEvents (state.setup va) regs) state va :=
  ⟨fun _ member => setup_register regs member, fun i used => setup_userData regs i used⟩

namespace Dispatched

variable {regs : Nat → Dword} {state : ComputeState} {va : BitVec 64}

/-- Each packed field reads its value, cut to the field. -/
theorem field (dispatched : Dispatched regs state va) {r : Dword × List (Field 32 × CInt)}
    (member : r ∈ state.packed) {p : Field 32 × CInt} (listed : p ∈ r.2) :
    p.1.get (regs r.1.toNat) = p.2 &&& p.1.mask := by
  rw [dispatched.register _ (state.packed_mem va r member)]
  exact Field.get_pack (state.packed_apart r member) p listed

theorem register_getElem (dispatched : Dispatched regs state va) (k : Nat) (hk : k < 17) :
    regs (state.registers va)[k].1.toNat = (state.registers va)[k].2 :=
  dispatched.register _ (List.getElem_mem hk)

theorem dim (dispatched : Dispatched regs state va) (d : Fin 3) :
    regs (Reg.computeDim d).toNat = state.dim d := by
  have written := dispatched.register_getElem
  match d with
  | 0 => exact written 0 (by decide)
  | 1 => exact written 1 (by decide)
  | 2 => exact written 2 (by decide)

theorem start (dispatched : Dispatched regs state va) (d : Fin 3) :
    regs (Reg.computeStart d).toNat = state.start d := by
  have written := dispatched.register_getElem
  match d with
  | 0 => exact written 3 (by decide)
  | 1 => exact written 4 (by decide)
  | 2 => exact written 5 (by decide)

theorem numThread (dispatched : Dispatched regs state va) (d : Fin 3) :
    regs (Reg.computeNumThread d).toNat = NumThread.full.set (state.numThread d) := by
  have written := dispatched.register_getElem
  match d with
  | 0 => exact written 6 (by decide)
  | 1 => exact written 7 (by decide)
  | 2 => exact written 8 (by decide)

theorem pgm (dispatched : Dispatched regs state va) :
    regs Reg.computePgmLo.toNat = (va >>> 8).setWidth 32 ∧
      regs Reg.computePgmHi.toNat = (va >>> 40).setWidth 32 := by
  have written := dispatched.register_getElem
  exact ⟨written 10 (by decide), written 11 (by decide)⟩

/-- The initiator is not among these registers. -/
theorem update (dispatched : Dispatched regs state va) (value : Dword) :
    Dispatched (Function.update regs Reg.computeDispatchInitiator.toNat value) state va where
  register w member := by
    have above := (dispatchRegs_mem (registers_mem member)).2.1
    rw [Function.update_of_ne (Nat.ne_of_gt above)]
    exact dispatched.register w member
  userData i used := by
    have bounds : Reg.computeDispatchInitiator.toNat = 47104 ∧
        Reg.computeUserData0.toNat = 47360 := ⟨rfl, rfl⟩
    rw [Function.update_of_ne (by omega)]
    exact dispatched.userData i used

end Dispatched

/-! ## The requested state -/

/-- Every field of the state fits its register. -/
structure ComputeState.InRange (state : ComputeState) : Prop where
  userDataLength : state.userDataLength.toNat ≤ 16
  fields : ∀ r ∈ state.packed, ∀ p ∈ r.2, p.1.Holds p.2
  tmpring : TmpringSize.waves.Holds state.tmpringWaves ∧
    TmpringSize.wavesize.Holds state.tmpringWavesize

instance (state : ComputeState) : Decidable state.InRange :=
  decidable_of_iff (_ ∧ _ ∧ _) ⟨fun ⟨length, fields, tmpring⟩ => ⟨length, fields, tmpring⟩,
    fun ⟨length, fields, tmpring⟩ => ⟨length, fields, tmpring⟩⟩

/-- The registers hold the state and the address of its binary. -/
structure Programmed (regs : Nat → Dword) (state : ComputeState) (va : Nat) : Prop where
  dim : ∀ d, regs (Reg.computeDim d).toNat = state.dim d
  start : ∀ d, regs (Reg.computeStart d).toNat = state.start d
  numThread : ∀ d, regs (Reg.computeNumThread d).toNat = state.numThread d
  pgm : (regs Reg.computePgmHi.toNat).toNat <<< 40 ||| (regs Reg.computePgmLo.toNat).toNat <<< 8 = va
  fields : ∀ r ∈ state.packed, ∀ p ∈ r.2, p.1.get (regs r.1.toNat) = p.2
  userData : ∀ i : Fin 16, i.val < state.userDataLength.toNat →
    regs (Reg.computeUserData0.toNat + 4 * i) = state.userData i

/-- An address below 2^48 on a 256-byte boundary is put together from its two registers. -/
theorem pgm_eq {va : BitVec 64} (below : va.toNat < 2 ^ 48) (aligned : va.toNat % 256 = 0) :
    ((va >>> 40).setWidth 32).toNat <<< 40 ||| ((va >>> 8).setWidth 32).toNat <<< 8 = va.toNat := by
  have high : ((va >>> 40).setWidth 32).toNat = va.toNat / 2 ^ 40 := by
    rw [BitVec.toNat_setWidth, BitVec.toNat_ushiftRight, Nat.shiftRight_eq_div_pow]
    omega
  have low : ((va >>> 8).setWidth 32).toNat = va.toNat / 2 ^ 8 % 2 ^ 32 := by
    rw [BitVec.toNat_setWidth, BitVec.toNat_ushiftRight, Nat.shiftRight_eq_div_pow]
  have short : (va.toNat / 2 ^ 8 % 2 ^ 32) <<< 8 < 2 ^ 40 := by
    rw [Nat.shiftLeft_eq]
    omega
  rw [high, low, ← Nat.shiftLeft_add_eq_or_of_lt short, Nat.shiftLeft_eq, Nat.shiftLeft_eq]
  omega

/-- A state in range is programmed by what its dispatch writes. -/
theorem Dispatched.programmed {regs : Nat → Dword} {state : ComputeState} {va : BitVec 64}
    (dispatched : Dispatched regs state va) (inRange : state.InRange) (below : va.toNat < 2 ^ 48)
    (aligned : va.toNat % 256 = 0) : Programmed regs state va.toNat := by
  have holds : ∀ d, NumThread.full.Holds (state.numThread d) := by
    intro d
    match d with
    | 0 => exact inRange.fields _ (List.getElem_mem (show 0 < 8 by decide)) _ List.mem_cons_self
    | 1 => exact inRange.fields _ (List.getElem_mem (show 1 < 8 by decide)) _ List.mem_cons_self
    | 2 => exact inRange.fields _ (List.getElem_mem (show 2 < 8 by decide)) _ List.mem_cons_self
  refine ⟨dispatched.dim, dispatched.start, fun d => ?_, ?_, ?_, dispatched.userData⟩
  · rw [dispatched.numThread, Field.set_of_off rfl]
    exact holds d
  · rw [dispatched.pgm.1, dispatched.pgm.2]
    exact pgm_eq below aligned
  · intro r member p listed
    rw [dispatched.field member listed]
    exact inRange.fields r member p listed

namespace ComputeState

variable {state : ComputeState} {va : BitVec 64}

/-- The setup writes SH registers only, and does not launch. -/
theorem setup_mem (few : state.userDataLength.toNat ≤ 16) : ∀ e ∈ state.setup va,
    ∃ reg value, e = .setShReg reg value ∧ siShRegOffset.toNat ≤ reg ∧ reg < siShRegEnd.toNat ∧
      reg ≠ Reg.computeDispatchInitiator.toNat := by
  have bounds : siShRegOffset.toNat = 45056 ∧ siShRegEnd.toNat = 49152 ∧
      Reg.computeDispatchInitiator.toNat = 47104 ∧ Reg.computeUserData0.toNat = 47360 :=
    ⟨rfl, rfl, rfl, rfl⟩
  intro e member
  rcases List.mem_append.mp member with early | late
  · obtain ⟨w, listed, rfl⟩ := List.mem_map.mp early
    obtain ⟨-, lo, hi⟩ := dispatchRegs_mem (registers_mem listed)
    exact ⟨w.1.toNat, w.2, rfl, by omega, by omega, by omega⟩
  · obtain ⟨i, hi, rfl⟩ := List.mem_mapIdx.mp late
    rw [List.length_take, List.length_ofFn] at hi
    exact ⟨_, _, rfl, by omega, by omega, by omega⟩

/-- Only the initiator changes after the setup. -/
theorem runEvents_launch (es : List CpEvent) (regs : Nat → Dword) :
    runEvents (es ++ cacheFlush :: launchEvents) regs =
      Function.update (runEvents es regs) Reg.computeDispatchInitiator.toNat 0 := by
  rw [runEvents_append]
  exact Function.update_idem _ _ _

/-- What is left after the whole stream. -/
theorem launch_dispatched (state : ComputeState) (va : BitVec 64) (regs : Nat → Dword) :
    Dispatched (runEvents (state.setup va ++ cacheFlush :: launchEvents) regs) state va := by
  rw [runEvents_launch]
  exact (state.setup_dispatched va regs).update 0

end ComputeState

/-- A stream that programs the state, flushes the caches, launches and clears
the initiator, in this order. -/
structure DispatchStream (buf : List Dword) (state : ComputeState) (va : Nat) : Prop where
  fits : buf.length ≤ 1024
  packets : ∃ packets, parsePackets buf = some packets
  launch : DispatchInitiator.computeShaderEn.get dispatchInitiator = 1
  runs : ∃ setup, cpEvents buf = some (setup ++
      [cacheFlush, .setShReg Reg.computeDispatchInitiator.toNat dispatchInitiator,
        .setShReg Reg.computeDispatchInitiator.toNat 0]) ∧
    (∀ e ∈ setup, ∃ reg value, e = .setShReg reg value ∧ siShRegOffset.toNat ≤ reg ∧
      reg < siShRegEnd.toNat ∧ reg ≠ Reg.computeDispatchInitiator.toNat) ∧
    ∀ regs, Programmed (runEvents setup regs) state va
  leaves : ∃ events, cpEvents buf = some events ∧ ∀ regs,
    Programmed (runEvents events regs) state va ∧
      runEvents events regs Reg.computeDispatchInitiator.toNat = 0

/-! ## The emission -/

section

variable {κ : Type} (drm : CsDrm κ) {h : Heap} {ctx : Addr} {state : ComputeState}
  (crelocs : List CsRelocGem)

/-- An emission that returned handed the driver the stream of its state. -/
theorem computeEmit_submitted {w w' : CsWorld κ} {r : Int}
    (run : computeEmitComputeStateManualRelocs drm h ctx state crelocs w = .ok (r, w')) :
    ∃ cs, w'.submitted = w.submitted ++ [cs] ∧
      computeStateBuf state (.ofNat 64 (h.buffer state.binary).va) = .ok cs.ib := by
  obtain ⟨binary, loaded, run⟩ := bind_eq_ok.mp run
  obtain ⟨buf, emitted, run⟩ := bind_eq_ok.mp run
  obtain ⟨c, -, submitted⟩ := bind_eq_ok.mp run
  obtain ⟨-, rfl⟩ := Prod.mk.inj (Except.ok.inj submitted)
  refine ⟨_, rfl, ?_⟩
  rw [radeonCs_ib, Heap.loadBuffer_ok loaded]
  exact emitted

/-- A state whose fields fit, with a binary whose address fits its registers. -/
structure Emittable (h : Heap) (ctx : Addr) (state : ComputeState) : Prop where
  ctxLive : ctx ∈ h.contexts.live
  binary : h.ValidBuffer state.binary
  inRange : state.InRange
  below : (h.buffer state.binary).va < 2 ^ 48
  aligned : (h.buffer state.binary).va % 256 = 0

theorem Emittable.address (emittable : Emittable h ctx state) :
    (BitVec.ofNat 64 (h.buffer state.binary).va).toNat = (h.buffer state.binary).va := by
  have below := emittable.below
  rw [BitVec.toNat_ofNat, Nat.mod_eq_of_lt (by omega)]

/-- It is emitted. -/
theorem Emittable.returns (emittable : Emittable h ctx state) (w : CsWorld κ) :
    ∃ r w', computeEmitComputeStateManualRelocs drm h ctx state crelocs w = .ok (r, w') := by
  obtain ⟨buf, emitted, -⟩ := computeStateBuf_spec emittable.inRange.userDataLength
    (.ofNat 64 (h.buffer state.binary).va)
  simp only [computeEmitComputeStateManualRelocs, Heap.loadBuffer_eq emittable.binary, ok_bind,
    emitted, Store.load_eq emittable.ctxLive]
  exact ⟨_, _, rfl⟩

/-- It is programmed by what its dispatch writes. -/
theorem Emittable.programmed (emittable : Emittable h ctx state) {regs : Nat → Dword}
    (dispatched : Dispatched regs state (.ofNat 64 (h.buffer state.binary).va)) :
    Programmed regs state (h.buffer state.binary).va := by
  have address := emittable.address
  have programmed := dispatched.programmed emittable.inRange
    (by rw [address]; exact emittable.below) (by rw [address]; exact emittable.aligned)
  rwa [address] at programmed

/-- The stream of a state in range programs it. -/
theorem Emittable.dispatchStream (emittable : Emittable h ctx state) {buf : List Dword}
    (emitted : computeStateBuf state (.ofNat 64 (h.buffer state.binary).va) = .ok buf) :
    DispatchStream buf state (h.buffer state.binary).va := by
  obtain ⟨buf', emitted', fits, events⟩ := computeStateBuf_spec emittable.inRange.userDataLength
    (.ofNat 64 (h.buffer state.binary).va)
  obtain rfl : buf' = buf := Except.ok.inj (emitted'.symm.trans emitted)
  constructor
  · exact fits
  · obtain ⟨packets, parsed, -⟩ := Option.bind_eq_some_iff.mp events
    exact ⟨packets, parsed⟩
  · decide
  · exact ⟨_, events, ComputeState.setup_mem emittable.inRange.userDataLength,
      fun regs => emittable.programmed (state.setup_dispatched _ regs)⟩
  · refine ⟨_, events, fun regs => ⟨emittable.programmed (state.launch_dispatched _ regs), ?_⟩⟩
    rw [ComputeState.runEvents_launch]
    exact Function.update_self _ _ _

/-- **A dispatch programs the requested state**, and then launches. -/
theorem computeEmit_programs (emittable : Emittable h ctx state) (w : CsWorld κ) :
    ∃ r w' cs, computeEmitComputeStateManualRelocs drm h ctx state crelocs w = .ok (r, w') ∧
      w'.submitted = w.submitted ++ [cs] ∧
      DispatchStream cs.ib state (h.buffer state.binary).va := by
  obtain ⟨r, w', run⟩ := emittable.returns drm crelocs w
  obtain ⟨cs, added, emitted⟩ := computeEmit_submitted drm crelocs run
  exact ⟨r, w', cs, run, added, emittable.dispatchStream emitted⟩

end

/-- A state that uses scratch memory. -/
def ComputeState.scratch (waves wavesize : CInt) : ComputeState where
  id := 7
  userData i := .ofNat 32 (4096 * i)
  userDataLength := 4
  dim d := if d = 0 then 16 else 1
  start _ := 0
  numThread d := if d = 0 then 64 else 1
  sgprNum := 12
  vgprNum := 63
  priority := 0
  debugMode := 0
  privMode := 0
  trapEn := 0
  ieeeMode := 1
  scratchEn := 1
  ldsSize := 128
  excpEn := 0
  wavesPerSh := 0
  threadGroupsPerCu := 0
  lockThreshold := 0
  simdDestCntl := 0
  se0Sh0CuEn := 0xFF
  se0Sh1CuEn := 0xFF
  se1Sh0CuEn := 0xFF
  se1Sh1CuEn := 0xFF
  tmpringWaves := waves
  tmpringWavesize := wavesize
  binary := ⟨0, 0⟩

theorem Emittable.scratch {waves wavesize : CInt} (fits : TmpringSize.waves.Holds waves ∧
    TmpringSize.wavesize.Holds wavesize) :
    Emittable (.oneBuffer 4096) 0 (.scratch waves wavesize) := by
  have buffer : Fragmented (.oneBuffer 4096) ⟨0, 0⟩ 4096 :=
    Fragmented.oneBuffer (requestOk_of_le (by decide) (by decide : 4096 ≤ 2 ^ 40))
  have va : ((Heap.oneBuffer 4096).buffer (ComputeState.scratch waves wavesize).binary).va = 4096 :=
    Heap.oneBuffer_va 4096
  have inRange : (ComputeState.scratch 0 0).InRange := by decide
  constructor
  · exact Finset.mem_singleton_self 0
  · exact buffer.intact.self
  · exact ⟨inRange.userDataLength, inRange.fields, fits⟩
  · rw [va]
    decide
  · rw [va]

/-- It is programmed. -/
theorem computeEmit_programs_scratch :
    ∃ r w' cs, computeEmitComputeStateManualRelocs .obliging (.oneBuffer 4096) 0 (.scratch 32 1) []
        ⟨(), []⟩ = .ok (r, w') ∧
      w'.submitted = [cs] ∧ DispatchStream cs.ib (.scratch 32 1) 4096 := by
  have emitted := computeEmit_programs .obliging []
    (@Emittable.scratch 32 1 ⟨by decide, by decide⟩) ⟨(), []⟩
  have address : ((Heap.oneBuffer 4096).buffer (ComputeState.scratch 32 1).binary).va = 4096 :=
    Heap.oneBuffer_va 4096
  rw [address] at emitted
  exact emitted

end RadeonsiCompute
