import RadeonsiCompute.Buffer.AllOrNothing
import RadeonsiCompute.Bytes.Refines

/-!
# Runs of the library as a memory

What the refinement says about whole runs: the operations a caller sees are
those of a memory of named arrays, no call that is asked for fails, and what was
written comes back through a copy on the device.
-/

namespace RadeonsiCompute

open Lib

variable {κ κ' : Type}

namespace Machine

variable {p : Platform κ κ'} {ctx : Addr} {s : Machine κ κ'} {rest : List Addr}

/-- Every call that may be asked for returns; an allocation if the driver has objects for all
of its fragments. -/
structure Answers (p : Platform κ κ') (ctx : Addr) (s : Machine κ κ') : Prop where
  alloc : ∀ libc size domain (alignment : Int),
    s.client.Legal ctx (.alloc libc size domain alignment) → RequestOk size →
    (∃ handles k, Creates p.drm (s.heap.contexts.cell ctx).fd s.client.world.kernel
      (createRequests size domain (toU64 alignment)) handles k) →
    ∃ result world, computeAllocGpuBuffer p.drm libc s.client.world ctx size domain alignment =
      .ok (result, world)
  free : ∀ bo ∈ s.client.held, ∃ world, computeFreeGpuBuffer p.drm s.client.world bo = .ok world
  toGpu : ∀ bo offset data, s.TransferAsked bo offset data.length →
    ∃ m, computeCopyToGpu .granting s.heap bo offset data.length (.ofData s.vram data) = (.ret 0, m)
  fromGpu : ∀ bo offset size host, s.TransferAsked bo offset size →
    ∃ m, computeCopyFromGpu .granting s.heap bo offset size ⟨s.vram, host, size⟩ = (.ret 0, m)
  syncCopy : ∀ dst dstOffset src srcOffset size,
    s.CopyAsked (2 ^ 48) dst dstOffset src srcOffset size →
    ∃ w, syncDmaCopy p.patientDrm s.heap ctx dst dstOffset src srcOffset
      size s.cs = .ok w
  asyncCopy : ∀ dst dstOffset src srcOffset size,
    s.CopyAsked (2 ^ 40) dst dstOffset src srcOffset size →
    (Aligned (s.heap.vaAt src srcOffset) (s.heap.vaAt dst dstOffset) → 4 ∣ size.toNat) →
    ∃ w w', asyncDmaCopy p.patientDrm s.heap ctx dst dstOffset src
        srcOffset size s.cs = .ok w ∧
      asyncDmaFence p.patientDrm s.heap dst w = .ok w'

theorem Inv.answers (inv : s.Inv p ctx rest) : s.Answers p ctx where
  alloc libc size domain alignment allowed ok granted := by
    obtain ⟨handles, k, created⟩ := granted
    rcases @computeAllocGpuBuffer_outcomes κ p.drm ctx s.client.held rest size domain libc
      s.client.world alignment inv.placed.legal.owned ok allowed.2 with
      ⟨handles', k₁, k₂, -, few, before, refusal⟩ |
        ⟨bo, handles', h', rest', k₁, k₂, -, -, -, ⟨run, -⟩ | ⟨h'', rest'', run, -⟩⟩
    · exact absurd refusal (created.not_refused few before)
    · exact ⟨_, _, run⟩
    · exact ⟨_, _, run⟩
  free bo held := by
    obtain ⟨h', rest', run, -⟩ := computeFreeGpuBuffer_spec p.drm inv.placed.legal.owned held
      (inv.placed.legal.inv.va_ne_zero held)
    exact ⟨_, run⟩
  toGpu bo offset data asked := by
    obtain ⟨m, run, -⟩ := asked.straight.write MmapEnv.granting_succeeds
      (inv.sized asked.held).fragmented asked.some asked.inside (.ofData s.vram data) rfl
    exact ⟨m, run⟩
  fromGpu bo offset size host asked := by
    obtain ⟨m, run, -⟩ := asked.straight.read MmapEnv.granting_succeeds
      (inv.sized asked.held).fragmented asked.some asked.inside ⟨s.vram, host, size⟩ rfl
    exact ⟨m, run⟩
  syncCopy dst dstOffset src srcOffset size asked := by
    have fits := inv.copyFits asked
    obtain ⟨w, -, -, run, -⟩ := syncDmaCopy_gone p.inOrder p.grants fits.ready asked.some
      fits.srcBelow fits.dstBelow fits.apart s.cs
    exact ⟨w, run⟩
  asyncCopy dst dstOffset src srcOffset size asked dwords := by
    have fits := inv.copyFits asked
    obtain ⟨w, w', -, -, run, fence, -⟩ := asyncDmaFence_gone p.inOrder p.grants fits.ready
      asked.some fits.srcBelow fits.dstBelow fits.apart dwords s.cs
    exact ⟨w, w', run, fence⟩

end Machine

/-! ## A run -/

/-- No two mappings share a handle or an address. -/
def Kernel.Apart (k : Kernel) : Prop :=
  ∀ m ∈ k.mappings, ∀ m' ∈ k.mappings, m.handle = m'.handle ∨ m.Overlaps m'.va m'.size → m = m'

instance (k : Kernel) : Decidable k.Apart :=
  inferInstanceAs (Decidable (∀ m ∈ k.mappings, ∀ m' ∈ k.mappings, _))

/-- The hardware can see any objects at their addresses. -/
theorem Kernel.Apart.exists_mem {k : Kernel} (apart : k.Apart) (vram : Nat → Nat → Byte) :
    ∃ mem, k.Shows vram mem := by
  classical
  refine ⟨fun a => if found : ∃ m ∈ k.mappings, m.va ≤ a ∧ a < m.va + m.size then
    vram found.choose.handle (a - found.choose.va) else 0, fun m member o inside => ?_⟩
  have found : ∃ m' ∈ k.mappings, m'.va ≤ m.va + o ∧ m.va + o < m'.va + m'.size :=
    ⟨m, member, by omega, by omega⟩
  dsimp only
  rw [dif_pos found]
  obtain ⟨inK, lo, hi⟩ := found.choose_spec
  have same : m = found.choose := by
    refine apart m member _ inK (.inr ?_)
    unfold Mapping.Overlaps
    omega
  rw [← same, Nat.add_sub_cancel_left]

/-- Objects can hold whatever is at their addresses. -/
theorem Kernel.Apart.exists_vram {k : Kernel} (apart : k.Apart) (mem : Nat → Byte) :
    ∃ vram, k.Shows vram mem := by
  classical
  refine ⟨fun x o => if found : ∃ m ∈ k.mappings, m.handle = x then mem (found.choose.va + o)
    else 0, fun m member o _ => ?_⟩
  have found : ∃ m' ∈ k.mappings, m'.handle = m.handle := ⟨m, member, rfl⟩
  dsimp only
  rw [dif_pos found]
  obtain ⟨inK, handle⟩ := found.choose_spec
  rw [apart _ inK m member (.inl handle)]

/-! ## What is asked for can be done -/

section Progress

variable {p : Platform κ κ'} {ctx : Addr} {s : Machine κ κ'} {rest : List Addr}

theorem Machine.Inv.exists_read (inv : s.Inv p ctx rest) {bo : BufPtr} {offset size : Nat}
    (asked : s.TransferAsked bo offset size) :
    ∃ back, back.length = size ∧ s.Step p ctx (.read bo offset back) s := by
  obtain ⟨m, run, -, same⟩ := asked.straight.read MmapEnv.granting_succeeds
    (inv.sized asked.held).fragmented asked.some asked.inside ⟨s.vram, fun _ => 0, size⟩ rfl
  exact ⟨(List.range size).map m.host, by simp,
    .fromGpu asked run rfl same.symm ⟨fun job member _ => member, inv.seen⟩⟩

theorem Machine.Inv.exists_copy (inv : s.Inv p ctx rest) (apart : (s.kernel p).Apart)
    {dst src : BufPtr} {dstOffset srcOffset size : SizeT}
    (asked : s.CopyAsked (2 ^ 48) dst dstOffset src srcOffset size) :
    ∃ s', s'.client = s.client ∧
      s.Step p ctx (.copy dst dstOffset.toNat src srcOffset.toNat size.toNat) s' := by
  obtain ⟨w, copied⟩ := inv.answers.syncCopy _ _ _ _ _ asked
  obtain ⟨vram, seen⟩ := apart.exists_vram (p.rings w.kernel).state
  exact ⟨⟨s.client, vram, w⟩, rfl, .syncCopy asked copied rfl seen⟩

variable {p : Platform κ (Rings Job (Nat → Byte))} {s : Machine κ (Rings Job (Nat → Byte))}

/-- While the rings are empty, the hardware can see whatever the host writes. -/
theorem Machine.Inv.exists_write (inv : s.Inv p ctx rest) (rings : p.rings = id)
    (apart : (s.kernel p).Apart) {bo : BufPtr} {offset : Nat} {data : List Byte}
    (asked : s.TransferAsked bo offset data.length) :
    ∃ s', s'.client = s.client ∧ s.Step p ctx (.write bo offset data) s' := by
  obtain ⟨m, run⟩ := inv.answers.toGpu bo offset data asked
  obtain ⟨mem, seen⟩ := apart.exists_mem m.vram
  refine ⟨⟨s.client, m.vram, ⟨⟨[], mem⟩, []⟩⟩, rfl, .toGpu asked run rfl rfl ⟨?_, ?_⟩⟩
  · intro job member
    rw [rings] at member
    exact absurd member List.not_mem_nil
  · show (p.view p.fd s.client.world.kernel).Shows m.vram (p.rings ⟨[], mem⟩).state
    rw [rings]
    exact seen

end Progress

/-- A driver with room for ten handles and hardware that works when waited for. -/
def lazyPlatform : Platform SoundKernel (Rings Job (Nat → Byte)) where
  drm := limitedDrm .above 10
  view _ k := k.1
  csDrm := lazyDrm copyExec
  rings := id
  effect job mem mem' := mem' = copyExec job mem
  fd := 3
  patience := 0
  honest := limitedDrm_honest .above 10
  inOrder := lazyDrm_inOrder copyExec
  grants := lazyDrm_grants copyExec
  makes := makesCopies_copyExec
  isolated job mem mem' other does := by rw [does, copyExec, if_neg other]

/-- Two allocations in a new context, and what they return. -/
theorem twoBuffers_returned :
    ∃ h w₁ w₂, createVmPool .above .oneContext 0 0 = .ok h ∧
      computeAllocGpuBuffer (limitedDrm .above 10) .above ⟨h, .empty⟩ 0 104857600 2 4096 =
        .ok (some ⟨1, 0⟩, w₁) ∧
      computeAllocGpuBuffer (limitedDrm .above 10) .above w₁ 0 5000 4 4096 =
        .ok (some ⟨2, 0⟩, w₂) ∧
      (h.contexts.cell 0).fd = 3 ∧
      Client.Legal 0 ⟨⟨h, SoundKernel.empty⟩, ∅⟩ (.alloc .above 104857600 2 4096) ∧
      Client.Legal 0 ⟨w₁, {⟨1, 0⟩}⟩ (.alloc .above 5000 4 4096) ∧
      w₁.kernel.1.Apart ∧ w₂.kernel.1.Apart ∧ w₂.heap.totalSize ⟨1, 0⟩ = 104857600 ∧
      w₂.heap.totalSize ⟨2, 0⟩ = 5000 ∧ (w₂.heap.buffer ⟨1, 0⟩).va = 4096 ∧
      (w₂.heap.buffer ⟨2, 0⟩).va = 104861696 := by
  obtain ⟨h, pool, more⟩ := Option.bind_eq_some_iff.mp (show
    ((createVmPool .above .oneContext 0 0).toOption.bind fun h =>
      (computeAllocGpuBuffer (limitedDrm .above 10) .above ⟨h, .empty⟩ 0 104857600 2
        4096).toOption.bind fun r₁ =>
      (computeAllocGpuBuffer (limitedDrm .above 10) .above r₁.2 0 5000 4 4096).toOption.bind
        fun r₂ => some (decide (r₁.1 = some ⟨1, 0⟩ ∧ r₂.1 = some ⟨2, 0⟩ ∧
          (h.contexts.cell 0).fd = 3 ∧
          Client.Legal 0 ⟨⟨h, SoundKernel.empty⟩, ∅⟩ (.alloc .above 104857600 2 4096) ∧
          Client.Legal 0 ⟨r₁.2, {⟨1, 0⟩}⟩ (.alloc .above 5000 4 4096) ∧
          r₁.2.kernel.1.Apart ∧ r₂.2.kernel.1.Apart ∧ r₂.2.heap.totalSize ⟨1, 0⟩ = 104857600 ∧
          r₂.2.heap.totalSize ⟨2, 0⟩ = 5000 ∧ (r₂.2.heap.buffer ⟨1, 0⟩).va = 4096 ∧
          (r₂.2.heap.buffer ⟨2, 0⟩).va = 104861696))) = some true by decide +kernel)
  obtain ⟨⟨result₁, w₁⟩, first, more⟩ := Option.bind_eq_some_iff.mp more
  obtain ⟨⟨result₂, w₂⟩, second, facts⟩ := Option.bind_eq_some_iff.mp more
  obtain ⟨rfl, rfl, facts⟩ := of_decide_eq_true (Option.some.inj facts)
  exact ⟨h, w₁, w₂, toOption_eq_some.mp pool, toOption_eq_some.mp first,
    toOption_eq_some.mp second, facts⟩

/-- On any such platform, the two calls are a run. -/
theorem opened_twoBuffers (p : Platform SoundKernel (Rings Job (Nat → Byte)))
    (drm : p.drm = limitedDrm .above 10) (view : p.view = fun _ k => k.1) (rings : p.rings = id)
    (fd : p.fd = 3) :
    ∃ s s', (machineSystem p 0).init s ∧
      (machineSystem p 0).Run s [.create ⟨1, 0⟩ 104857600, .create ⟨2, 0⟩ 5000] s' ∧
      s'.client.held = {⟨2, 0⟩, ⟨1, 0⟩} ∧ (s'.kernel p).Apart ∧
      s'.heap.totalSize ⟨1, 0⟩ = 104857600 ∧ s'.heap.totalSize ⟨2, 0⟩ = 5000 ∧
      (s'.heap.buffer ⟨1, 0⟩).va = 4096 ∧ (s'.heap.buffer ⟨2, 0⟩).va = 104861696 := by
  obtain ⟨h, w₁, w₂, pool, first, second, own, legal₁, legal₂, apart₁, apart₂, sizes⟩ :=
    twoBuffers_returned
  obtain ⟨mem₁, seen₁⟩ := apart₁.exists_mem fun _ _ => 0
  obtain ⟨mem₂, seen₂⟩ := apart₂.exists_mem fun _ _ => 0
  obtain ⟨_, _, csDrm, _, effect, _, patience, honest, inOrder, grants, makes, isolated⟩ := p
  subst drm view rings fd
  let q : Platform SoundKernel (Rings Job (Nat → Byte)) :=
    ⟨_, _, csDrm, _, effect, _, patience, honest, inOrder, grants, makes, isolated⟩
  let s₀ : Machine SoundKernel (Rings Job (Nat → Byte)) :=
    ⟨⟨⟨h, .empty⟩, ∅⟩, fun _ _ => 0, ⟨⟨[], fun _ => 0⟩, []⟩⟩
  let s₁ : Machine SoundKernel (Rings Job (Nat → Byte)) :=
    ⟨⟨w₁, {⟨1, 0⟩}⟩, fun _ _ => 0, ⟨⟨[], mem₁⟩, []⟩⟩
  let s₂ : Machine SoundKernel (Rings Job (Nat → Byte)) :=
    ⟨⟨w₂, {⟨2, 0⟩, ⟨1, 0⟩}⟩, fun _ _ => 0, ⟨⟨[], mem₂⟩, []⟩⟩
  have create₁ : Machine.Step q 0 s₀ (.create ⟨1, 0⟩ 104857600) s₁ :=
    .alloc legal₁ first rfl (fun _ _ _ => rfl)
      ⟨fun job member => absurd member List.not_mem_nil, seen₁⟩
  have create₂ : Machine.Step q 0 s₁ (.create ⟨2, 0⟩ 5000) s₂ :=
    .alloc legal₂ second rfl (fun _ _ _ => rfl)
      ⟨fun job member => absurd member List.not_mem_nil, seen₂⟩
  refine ⟨s₀, s₂, ?_, .cons create₁ (.single create₂), rfl, apart₂, sizes⟩
  exact ⟨rfl, own, fun job member => absurd member List.not_mem_nil,
    fun m member => absurd member (Finset.notMem_empty m), .above, .oneContext, 0,
    by decide, by decide, pool⟩

/-- Three bytes written to the larger buffer, copied to the smaller one, and
read back. -/
theorem lazyPlatform_run : ∃ s s' back, (machineSystem lazyPlatform 0).init s ∧
    (machineSystem lazyPlatform 0).Run s
      ([.create ⟨1, 0⟩ 104857600, .create ⟨2, 0⟩ 5000] ++ (.write ⟨1, 0⟩ 0 [1, 2, 3] :: [] ++
        .copy ⟨2, 0⟩ 0 ⟨1, 0⟩ 0 3 :: [] ++ [.read ⟨2, 0⟩ 0 back])) s' ∧ back.length = 3 := by
  obtain ⟨s, s₂, init, opened, held, apart, size₁, size₂, va₁, va₂⟩ :=
    opened_twoBuffers lazyPlatform rfl rfl rfl rfl
  have invariant := (machine_refines lazyPlatform 0).inv
  obtain ⟨rest, inv₂⟩ := invariant.invariant (opened.reachable (.init init))
  have larger : ⟨1, 0⟩ ∈ s₂.client.held := by simp [held]
  have smaller : ⟨2, 0⟩ ∈ s₂.client.held := by simp [held]
  have writeAsked : s₂.TransferAsked ⟨1, 0⟩ 0 ([1, 2, 3] : List Byte).length :=
    ⟨larger, by decide, by rw [size₁]; decide, .inl rfl⟩
  -- the pool stays as it is from here on
  obtain ⟨⟨_, vram₃, cs₃⟩, rfl, write⟩ := inv₂.exists_write rfl apart writeAsked
  obtain ⟨rest₃, inv₃⟩ := invariant.step _ _ _ ⟨rest, inv₂⟩ write
  have copyAsked : (Machine.mk s₂.client vram₃ cs₃).CopyAsked (2 ^ 48) ⟨2, 0⟩ 0 ⟨1, 0⟩ 0 3 :=
    ⟨smaller, larger, by decide, by show 0 + 3 ≤ s₂.heap.totalSize _; omega,
      by show 0 + 3 ≤ s₂.heap.totalSize _; omega, fun same => absurd same (by decide),
      by show (s₂.heap.buffer _).va + 0 + 3 ≤ _; omega,
      by show (s₂.heap.buffer _).va + 0 + 3 ≤ _; omega⟩
  obtain ⟨⟨_, vram₄, cs₄⟩, rfl, copy⟩ := inv₃.exists_copy apart copyAsked
  obtain ⟨rest₄, inv₄⟩ := invariant.step _ _ _ ⟨rest₃, inv₃⟩ copy
  have readAsked : (Machine.mk s₂.client vram₄ cs₄).TransferAsked ⟨2, 0⟩ 0 3 :=
    ⟨smaller, by decide, by show 0 + 3 ≤ s₂.heap.totalSize _; omega, .inl rfl⟩
  obtain ⟨back, len, read⟩ := inv₄.exists_read readAsked
  exact ⟨s, _, back, init, opened.append (.cons write (.cons copy (.single read))), len⟩

/-! ## What the caller sees -/

/-- **The buffers of a caller are arrays.** Every run of allocations, releases,
transfers and copies, on any platform, is a run of the memory of named arrays,
and in every state it reaches no call that may be asked for fails. -/
theorem machine_arrays (p : Platform κ κ') (ctx : Addr) {s s' : Machine κ κ'}
    {ops : List (ArrayOp BufPtr Byte)} (init : (machineSystem p ctx).init s)
    (run : (machineSystem p ctx).Run s ops s') :
    (arraySystem BufPtr Byte).Run (fun _ => none) ops s'.arrays ∧ s'.Answers p ctx ∧
      s'.Idle p := by
  have refines := machine_refines p ctx
  have spec := refines.run run (refines.inv.init s init)
  rw [(Machine.Inv.start init).2] at spec
  obtain ⟨rest, inv⟩ := refines.inv.invariant (run.reachable (.init init))
  exact ⟨spec, inv.answers, inv.idle⟩

/-- The five calls of the run. -/
theorem machine_arrays_fiveCalls : ∃ s s' ops, (machineSystem lazyPlatform 0).init s ∧
    (machineSystem lazyPlatform 0).Run s ops s' ∧ ops.length = 5 ∧
      (arraySystem BufPtr Byte).Run (fun _ => none) ops s'.arrays := by
  obtain ⟨s, s', back, init, run, -⟩ := lazyPlatform_run
  exact ⟨s, s', _, init, run, rfl, (machine_arrays lazyPlatform 0 init run).1⟩

/-- **What was written comes back through a copy** on the device, whatever is
allocated, released, written and copied before and in between, as long as it
does not touch the two parts. -/
theorem machine_readBack (p : Platform κ κ') (ctx : Addr) {s s' : Machine κ κ'}
    {bo dst : BufPtr} {offset dstOffset : Nat} {data back : List Byte}
    {earlier before between : List (ArrayOp BufPtr Byte)}
    (init : (machineSystem p ctx).init s)
    (run : (machineSystem p ctx).Run s (earlier ++ (.write bo offset data :: before ++
      .copy dst dstOffset bo offset data.length :: between ++ [.read dst dstOffset back])) s')
    (len : back.length = data.length)
    (first : ∀ op ∈ before, op.Spares bo offset data.length)
    (second : ∀ op ∈ between, op.Spares dst dstOffset data.length) : back = data := by
  have refines := machine_refines p ctx
  obtain ⟨s₁, ahead, main⟩ := run.split
  obtain ⟨rest, inv⟩ := refines.inv.invariant (ahead.reachable (.init init))
  exact arraySystem_readBack (refines.run main ⟨rest, inv⟩) len first second

/-- So the bytes read back are the bytes written. -/
theorem machine_readBack_threeBytes : ∃ s s' back, (machineSystem lazyPlatform 0).init s ∧
    (machineSystem lazyPlatform 0).Run s
      ([.create ⟨1, 0⟩ 104857600, .create ⟨2, 0⟩ 5000] ++ (.write ⟨1, 0⟩ 0 [1, 2, 3] :: [] ++
        .copy ⟨2, 0⟩ 0 ⟨1, 0⟩ 0 3 :: [] ++ [.read ⟨2, 0⟩ 0 back])) s' ∧ back = [1, 2, 3] := by
  obtain ⟨s, s', back, init, run, len⟩ := lazyPlatform_run
  have same : back = [1, 2, 3] := machine_readBack lazyPlatform 0 init run len
    (fun op member => absurd member List.not_mem_nil)
    (fun op member => absurd member List.not_mem_nil)
  exact ⟨s, s', back, init, run, same⟩

end RadeonsiCompute
