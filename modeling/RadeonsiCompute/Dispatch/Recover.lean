import RadeonsiCompute.Dispatch.Program

/-!
# What a dispatch stream tells of its state

Every field that is written to a register can be read back from the stream, and
so can the address of the binary. The scratch ring has a register of its own,
`COMPUTE_TMPRING_SIZE`, but no dispatch writes it: two states that differ in
nothing else have the same stream.
-/

namespace RadeonsiCompute

open Lib

namespace ComputeState

/-- The fields that matter to the hardware. The others are cleared; the address
of the binary is kept apart. -/
def hardware (state : ComputeState) : ComputeState :=
  { state with
    id := 0
    userData := fun i => if i.val < state.userDataLength.toNat then state.userData i else 0
    binary := ⟨0, 0⟩ }

/-- Those that are written to a register. -/
def written (state : ComputeState) : ComputeState :=
  { state.hardware with tmpringWaves := 0, tmpringWavesize := 0 }

/-- What is not written is the scratch ring. -/
theorem hardware_eq_iff {s s' : ComputeState} : s.hardware = s'.hardware ↔
    s.written = s'.written ∧ s.tmpringWaves = s'.tmpringWaves ∧
      s.tmpringWavesize = s'.tmpringWavesize := by
  constructor
  · intro same
    have waves : s.hardware.tmpringWaves = s'.hardware.tmpringWaves := by rw [same]
    have wavesize : s.hardware.tmpringWavesize = s'.hardware.tmpringWavesize := by rw [same]
    exact ⟨by rw [written, written, same], waves, wavesize⟩
  · rintro ⟨same, waves, wavesize⟩
    have back : ∀ s : ComputeState, s.hardware = { s.written with
        tmpringWaves := s.tmpringWaves, tmpringWavesize := s.tmpringWavesize } := fun s => rfl
    rw [back s, back s', same, waves, wavesize]

@[simp] theorem written_userDataLength (state : ComputeState) :
    state.written.userDataLength = state.userDataLength := rfl

/-- The stream is that of the written fields. -/
theorem computeStateBuf_written (state : ComputeState) (va : BitVec 64)
    (few : state.userDataLength.toNat ≤ 16) :
    computeStateBuf state.written va = computeStateBuf state va := by
  have registers : state.written.registers va = state.registers va := rfl
  have sent : (List.ofFn state.written.userData).take state.userDataLength.toInt.toNat =
      (List.ofFn state.userData).take state.userDataLength.toInt.toNat := by
    apply List.ext_getElem
    · rw [List.length_take, List.length_take, List.length_ofFn, List.length_ofFn]
    · intro i hi _
      rw [List.length_take, userDataLength_toInt few] at hi
      rw [List.getElem_take, List.getElem_take, List.getElem_ofFn, List.getElem_ofFn]
      exact if_pos (lt_of_lt_of_le hi (min_le_left _ _))
  have dwords : state.written.userDataDwords = state.userDataDwords := by
    simp only [userDataDwords, written_userDataLength, sent]
  have userData : state.written.userDataBuf = state.userDataBuf := by
    simp only [userDataBuf, written_userDataLength, dwords]
  rw [computeStateBuf, computeStateBuf, registers, userData]

end ComputeState

/-! ## Reading the state back -/

/-- The state in the registers. -/
def readState (regs : Nat → Dword) : ComputeState :=
  let rsrc1 := regs Reg.computePgmRsrc1.toNat
  let rsrc2 := regs Reg.computePgmRsrc2.toNat
  let limits := regs Reg.computeResourceLimits.toNat
  let se0 := regs Reg.computeStaticThreadMgmtSe0.toNat
  let se1 := regs Reg.computeStaticThreadMgmtSe1.toNat
  { id := 0
    userData := fun i =>
      if i.val < (PgmRsrc2.userSgpr.get rsrc2).toNat then
        regs (Reg.computeUserData0.toNat + 4 * i)
      else 0
    userDataLength := PgmRsrc2.userSgpr.get rsrc2
    dim := fun d => regs (Reg.computeDim d).toNat
    start := fun d => regs (Reg.computeStart d).toNat
    numThread := fun d => regs (Reg.computeNumThread d).toNat
    sgprNum := PgmRsrc1.sgprs.get rsrc1
    vgprNum := PgmRsrc1.vgprs.get rsrc1
    priority := PgmRsrc1.priority.get rsrc1
    debugMode := PgmRsrc1.debugMode.get rsrc1
    privMode := PgmRsrc1.priv.get rsrc1
    trapEn := PgmRsrc2.trapEn.get rsrc2
    ieeeMode := PgmRsrc1.ieeeMode.get rsrc1
    scratchEn := PgmRsrc2.scratchEn.get rsrc2
    ldsSize := PgmRsrc2.ldsSize.get rsrc2
    excpEn := PgmRsrc2.excpEn.get rsrc2
    wavesPerSh := ResourceLimits.wavesPerSh.get limits
    threadGroupsPerCu := ResourceLimits.tgPerCu.get limits
    lockThreshold := ResourceLimits.lockThreshold.get limits
    simdDestCntl := ResourceLimits.simdDestCntl.get limits
    se0Sh0CuEn := StaticThreadMgmt.sh0CuEn.get se0
    se0Sh1CuEn := StaticThreadMgmt.sh1CuEn.get se0
    se1Sh0CuEn := StaticThreadMgmt.sh0CuEn.get se1
    se1Sh1CuEn := StaticThreadMgmt.sh1CuEn.get se1
    tmpringWaves := 0
    tmpringWavesize := 0
    binary := ⟨0, 0⟩ }

/-- The address of the binary in the registers. -/
def readPgm (regs : Nat → Dword) : Nat :=
  (regs Reg.computePgmHi.toNat).toNat <<< 40 ||| (regs Reg.computePgmLo.toNat).toNat <<< 8

/-- What a stream tells, executed on registers that are all zero. -/
def recover (stream : List Dword) : Option (ComputeState × Nat) :=
  (cpEvents stream).map fun events =>
    let regs := runEvents events fun _ => 0
    (readState regs, readPgm regs)

section

variable {regs : Nat → Dword} {state : ComputeState} {va : Nat}

/-- A field of a packed register is read back. -/
theorem Programmed.packed_eq (programmed : Programmed regs state va) :
    state.packed = packedLayout.map fun r =>
      (r.1, r.2.map fun f => (f, f.get (regs r.1.toNat))) := by
  rw [← state.packed_layout, List.map_map]
  refine (List.map_id _).symm.trans (List.map_congr_left fun r member => ?_)
  refine Prod.ext rfl ?_
  show r.2 = (r.2.map Prod.fst).map _
  rw [List.map_map]
  refine (List.map_id _).symm.trans (List.map_congr_left fun p field => ?_)
  exact Prod.ext rfl (programmed.fields r member p field).symm

/-- **The registers of a programmed state tell what was written.** -/
theorem Programmed.readState_eq (programmed : Programmed regs state va) :
    readState regs = state.written := by
  have fields := programmed.packed_eq
  simp only [ComputeState.packed, packedLayout, List.map_cons, List.map_nil, List.cons.injEq,
    Prod.mk.injEq, true_and, and_true] at fields
  obtain ⟨-, -, -, ⟨vgprs, sgprs, priority, -, priv, -, debug, ieee⟩,
    ⟨scratch, userSgpr, trap, -, -, -, -, -, lds, excp⟩,
    ⟨waves, groups, lock, simd⟩, ⟨se0Sh0, se0Sh1⟩, ⟨se1Sh0, se1Sh1⟩⟩ := fields
  have userData : (readState regs).userData = state.written.userData := by
    funext i
    show (if i.val < (PgmRsrc2.userSgpr.get _).toNat then _ else _) = if _ then _ else _
    rw [← userSgpr]
    split
    · next used => exact programmed.userData i used
    · rfl
  have dim : (readState regs).dim = state.written.dim := funext programmed.dim
  have start : (readState regs).start = state.written.start := funext programmed.start
  have numThread : (readState regs).numThread = state.written.numThread :=
    funext programmed.numThread
  exact ComputeState.ext rfl userData userSgpr.symm dim start numThread sgprs.symm vgprs.symm
    priority.symm debug.symm priv.symm trap.symm ieee.symm scratch.symm lds.symm excp.symm
    waves.symm groups.symm lock.symm simd.symm se0Sh0.symm se0Sh1.symm se1Sh0.symm se1Sh1.symm
    rfl rfl rfl

end

/-- **What is written can be recovered** from the stream, and so can the
address of the binary. -/
theorem Emittable.recover_eq {h : Heap} {ctx : Addr} {state : ComputeState}
    (emittable : Emittable h ctx state) {buf : List Dword}
    (emitted : computeStateBuf state (.ofNat 64 (h.buffer state.binary).va) = .ok buf) :
    recover buf = some (state.written, (h.buffer state.binary).va) := by
  obtain ⟨events, executed, leaves⟩ := (emittable.dispatchStream emitted).leaves
  have programmed := (leaves fun _ => 0).1
  have pgm : readPgm (runEvents events fun _ => 0) = (h.buffer state.binary).va := programmed.pgm
  rw [recover, executed, Option.map_some]
  show some (readState _, readPgm _) = _
  rw [programmed.readState_eq, pgm]

/-- **Two streams are the same** when the same was written. -/
theorem Emittable.stream_eq_iff {h h' : Heap} {ctx ctx' : Addr} {state state' : ComputeState}
    (emittable : Emittable h ctx state) (emittable' : Emittable h' ctx' state')
    {buf buf' : List Dword}
    (emitted : computeStateBuf state (.ofNat 64 (h.buffer state.binary).va) = .ok buf)
    (emitted' : computeStateBuf state' (.ofNat 64 (h'.buffer state'.binary).va) = .ok buf') :
    buf = buf' ↔ state.written = state'.written ∧
      (h.buffer state.binary).va = (h'.buffer state'.binary).va := by
  constructor
  · intro same
    have recovered := emittable.recover_eq emitted
    rw [same, emittable'.recover_eq emitted'] at recovered
    exact (Prod.mk.inj (Option.some.inj recovered)).imp Eq.symm Eq.symm
  · rintro ⟨written, va⟩
    rw [← ComputeState.computeStateBuf_written _ _ emittable.inRange.userDataLength, written, va,
      ComputeState.computeStateBuf_written _ _ emittable'.inRange.userDataLength] at emitted
    exact Except.ok.inj (emitted.symm.trans emitted')

section

variable {κ : Type} (drm : CsDrm κ) {h h' : Heap} {ctx ctx' : Addr} {state state' : ComputeState}
  (crelocs crelocs' : List CsRelocGem)

/-- Two states differ in a hardware field, or in the address of the binary. -/
def HardwareDiffers (h : Heap) (state : ComputeState) (h' : Heap) (state' : ComputeState) : Prop :=
  state.hardware ≠ state'.hardware ∨
    (h.buffer state.binary).va ≠ (h'.buffer state'.binary).va

/-- They differ in the scratch ring and in no other field. -/
structure OnlyTmpringDiffers (h : Heap) (state : ComputeState) (h' : Heap)
    (state' : ComputeState) : Prop where
  written : state.written = state'.written
  va : (h.buffer state.binary).va = (h'.buffer state'.binary).va
  tmpring : state.tmpringWaves ≠ state'.tmpringWaves ∨
    state.tmpringWavesize ≠ state'.tmpringWavesize

/-- **Exactly when two states are told apart** by their streams: unless they
differ in the scratch ring only. -/
theorem computeEmit_distinguishes_iff (emittable : Emittable h ctx state)
    (emittable' : Emittable h' ctx' state') (w w' : CsWorld κ) :
    ∃ r w₁ cs r' w₁' cs',
      computeEmitComputeStateManualRelocs drm h ctx state crelocs w = .ok (r, w₁) ∧
      w₁.submitted = w.submitted ++ [cs] ∧
      computeEmitComputeStateManualRelocs drm h' ctx' state' crelocs' w' = .ok (r', w₁') ∧
      w₁'.submitted = w'.submitted ++ [cs'] ∧
      recover cs.ib = some (state.written, (h.buffer state.binary).va) ∧
      ((HardwareDiffers h state h' state' → cs.ib ≠ cs'.ib) ↔
        ¬ OnlyTmpringDiffers h state h' state') := by
  obtain ⟨r, w₁, run⟩ := emittable.returns drm crelocs w
  obtain ⟨r', w₁', run'⟩ := emittable'.returns drm crelocs' w'
  obtain ⟨cs, added, emitted⟩ := computeEmit_submitted drm crelocs run
  obtain ⟨cs', added', emitted'⟩ := computeEmit_submitted drm crelocs' run'
  refine ⟨r, w₁, cs, r', w₁', cs', run, added, run', added', emittable.recover_eq emitted, ?_⟩
  rw [ne_eq, emittable.stream_eq_iff emittable' emitted emitted']
  constructor
  · rintro apart ⟨written, va, tmpring⟩
    refine apart (Or.inl ?_) ⟨written, va⟩
    rw [ne_eq, ComputeState.hardware_eq_iff]
    rintro ⟨-, waves, wavesize⟩
    cases tmpring with
    | inl other => exact other waves
    | inr other => exact other wavesize
  · rintro notOnly differ ⟨written, va⟩
    refine notOnly ⟨written, va, ?_⟩
    cases differ with
    | inl hardware =>
        rw [ne_eq, ComputeState.hardware_eq_iff] at hardware
        by_contra same
        rw [not_or, not_not, not_not] at same
        exact hardware ⟨written, same⟩
    | inr other => exact absurd va other

end

/-- A kernel with half the registers is told apart. -/
theorem computeEmit_distinguishes_vgprNum :
    ∃ r w cs r' w' cs',
      computeEmitComputeStateManualRelocs .obliging (.oneBuffer 4096) 0 (.scratch 32 1) []
        ⟨(), []⟩ = .ok (r, w) ∧
      w.submitted = [cs] ∧
      computeEmitComputeStateManualRelocs .obliging (.oneBuffer 4096) 0
        { ComputeState.scratch 32 1 with vgprNum := 31 } [] ⟨(), []⟩ = .ok (r', w') ∧
      w'.submitted = [cs'] ∧ cs.ib ≠ cs'.ib := by
  have one := @Emittable.scratch 32 1 ⟨by decide, by decide⟩
  have other : Emittable (.oneBuffer 4096) 0 { ComputeState.scratch 32 1 with vgprNum := 31 } :=
    ⟨one.ctxLive, one.binary, by decide, one.below, one.aligned⟩
  have vgprs : ComputeState.vgprNum (.scratch 32 1) ≠ 31 := by decide
  obtain ⟨r, w, cs, r', w', cs', run, added, run', added', -, apart⟩ :=
    computeEmit_distinguishes_iff .obliging [] [] one other ⟨(), []⟩ ⟨(), []⟩
  refine ⟨r, w, cs, r', w', cs', run, added, run', added', apart.mpr ?_ (Or.inl ?_)⟩
  · intro only
    exact vgprs (congrArg ComputeState.vgprNum only.written)
  · intro same
    exact vgprs (congrArg ComputeState.vgprNum same)

/-- Two states that differ in the size of the scratch ring are not told apart. -/
theorem not_computeEmit_distinguishes_tmpring :
    Emittable (.oneBuffer 4096) 0 (.scratch 32 1) ∧
      Emittable (.oneBuffer 4096) 0 (.scratch 16 1) ∧
      HardwareDiffers (.oneBuffer 4096) (.scratch 32 1) (.oneBuffer 4096) (.scratch 16 1) ∧
      ∃ r w cs,
        computeEmitComputeStateManualRelocs .obliging (.oneBuffer 4096) 0 (.scratch 32 1) []
          ⟨(), []⟩ = .ok (r, w) ∧
        computeEmitComputeStateManualRelocs .obliging (.oneBuffer 4096) 0 (.scratch 16 1) []
          ⟨(), []⟩ = .ok (r, w) ∧
        w.submitted = [cs] := by
  have one := @Emittable.scratch 32 1 ⟨by decide, by decide⟩
  have other := @Emittable.scratch 16 1 ⟨by decide, by decide⟩
  refine ⟨one, other, Or.inl fun same => ?_, ?_⟩
  · have waves : (32 : CInt) = 16 := congrArg ComputeState.tmpringWaves same
    exact absurd waves (by decide)
  · obtain ⟨r, w, run⟩ := one.returns .obliging [] ⟨(), []⟩
    obtain ⟨cs, added, -⟩ := computeEmit_submitted .obliging [] run
    exact ⟨r, w, cs, run, run, added⟩

end RadeonsiCompute
