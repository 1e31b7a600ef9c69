import RadeonsiCompute.Buffer.Fragments
import RadeonsiCompute.Cs.Packet

/-!
# Handing a command stream to the driver

`DRM_RADEON_CS` takes three chunks: the flags with the ring, the relocation
table, and the indirect buffer of packets. What the driver answers is not
modelled; what was handed to it is remembered, in order.
-/

namespace RadeonsiCompute

open Lib

/-- `struct cs_reloc_gem`. -/
structure CsRelocGem where
  handle : Nat
  readDomain : Nat
  writeDomain : Nat
  flags : Nat
  deriving DecidableEq, Repr

/-- The entry as it stands in its chunk. -/
def CsRelocGem.dwords (r : CsRelocGem) : List Dword :=
  [.ofNat 32 r.handle, .ofNat 32 r.readDomain, .ofNat 32 r.writeDomain, .ofNat 32 r.flags]

/-- `struct drm_radeon_cs_chunk`, whose `length_dw` is the length of its data. -/
structure CsChunk where
  chunkId : Nat
  chunkData : List Dword
  deriving DecidableEq, Repr

/-- `struct drm_radeon_cs`. -/
structure RadeonCs where
  chunks : List CsChunk
  csId : Dword
  deriving DecidableEq, Repr

def radeonChunkIdRelocs : Nat := 0x01

def radeonChunkIdIb : Nat := 0x02

def radeonChunkIdFlags : Nat := 0x03

def radeonCsUseVm : Dword := 0x02

def radeonCsRingCompute : Dword := 1

def radeonCsRingDma : Dword := 2

/-- The submission all senders put together. -/
def radeonCs (ring : Dword) (relocs : List CsRelocGem) (buf : List Dword) (csId : Dword) :
    RadeonCs where
  chunks :=
    [{ chunkId := radeonChunkIdFlags, chunkData := [radeonCsUseVm, ring] },
      { chunkId := radeonChunkIdRelocs, chunkData := relocs.flatMap CsRelocGem.dwords },
      { chunkId := radeonChunkIdIb, chunkData := buf }]
  csId := csId

/-- The packets of a submission. -/
def RadeonCs.ib (cs : RadeonCs) : List Dword :=
  (cs.chunks.filter fun c => c.chunkId == radeonChunkIdIb).flatMap CsChunk.chunkData

@[simp] theorem radeonCs_ib (ring : Dword) (relocs : List CsRelocGem) (buf : List Dword)
    (csId : Dword) : (radeonCs ring relocs buf csId).ib = buf := by
  show buf ++ [] = buf
  exact List.append_nil buf

/-- The answers of the driver in its states: to `DRM_RADEON_CS`, and to
`DRM_RADEON_GEM_WAIT_IDLE` once it no longer says `-EBUSY`. -/
structure CsDrm (κ : Type) where
  cs : Nat → RadeonCs → κ → Int × κ
  waitIdle : Nat → Nat → κ → Int × κ

/-- A driver that says 0 to everything. -/
def CsDrm.obliging : CsDrm Unit where
  cs _ _ k := (0, k)
  waitIdle _ _ k := (0, k)

/-- A driver and what it was handed so far. -/
structure CsWorld (κ : Type) where
  kernel : κ
  submitted : List RadeonCs

variable {κ : Type} (drm : CsDrm κ)

/-- `drmCommandWriteRead(fd, DRM_RADEON_CS, ..)`. -/
def CsWorld.submit (w : CsWorld κ) (fd : Nat) (cs : RadeonCs) : Int × CsWorld κ :=
  let (r, kernel) := drm.cs fd cs w.kernel
  (r, { kernel, submitted := w.submitted ++ [cs] })

@[simp] theorem CsWorld.submit_submitted (w : CsWorld κ) (fd : Nat) (cs : RadeonCs) :
    (w.submit drm fd cs).2.submitted = w.submitted ++ [cs] := rfl

/-- `assert(condition)`. -/
def assertThat (condition : Prop) [Decidable condition] (text : String) : Except Fault Unit :=
  if condition then .ok () else .error (.assertion text)

theorem assertThat_eq_ok {condition : Prop} [Decidable condition] {text : String} {u : Unit} :
    assertThat condition text = .ok u ↔ condition := by
  unfold assertThat
  split <;> simp_all

theorem assertThat_ok {condition : Prop} [Decidable condition] {text : String}
    (holds : condition) : assertThat condition text = .ok () := if_pos holds

/-! ## Relocations -/

/-- `compute_push_reloc_unfragmented`. -/
def computePushRelocUnfragmented (relocs : List CsRelocGem) (bo : GpuBuffer) : List CsRelocGem :=
  relocs ++ [{ handle := bo.handle, readDomain := bo.domain, writeDomain := bo.domain, flags := 0 }]

/-- The loop of `compute_push_reloc`, from fragment `i` on. -/
def pushRelocLoop (h : Heap) (bo : BufPtr) : Nat → Nat → List CsRelocGem →
    Except Fault (List CsRelocGem)
  | 0, _, relocs => .ok relocs
  | count + 1, i, relocs => do
      let b ← h.loadBuffer (bo.add i)
      pushRelocLoop h bo count (i + 1) (computePushRelocUnfragmented relocs b)

def computePushReloc (h : Heap) (relocs : List CsRelocGem) (bo : BufPtr) :
    Except Fault (List CsRelocGem) := do
  let b ← h.loadBuffer bo
  pushRelocLoop h bo b.fragmentNumber 0 relocs

/-- The entry `compute_push_reloc_unfragmented` writes. -/
def GpuBuffer.reloc (bo : GpuBuffer) : CsRelocGem :=
  { handle := bo.handle, readDomain := bo.domain, writeDomain := bo.domain, flags := 0 }

section Relocations

variable {h : Heap} {bo : BufPtr}

theorem pushRelocLoop_eq (count : Nat) : ∀ (i : Nat) (relocs : List CsRelocGem),
    (∀ j < count, h.ValidBuffer (bo.add (i + j))) →
      pushRelocLoop h bo count i relocs = .ok (relocs ++
        (List.range' i count).map fun j => (h.buffer (bo.add j)).reloc) := by
  induction count with
  | zero =>
      intro i relocs _
      rw [List.range'_zero, List.map_nil, List.append_nil]
      rfl
  | succ count ih =>
      intro i relocs valid
      have here : h.ValidBuffer (bo.add i) := by simpa using valid 0 (by omega)
      simp only [pushRelocLoop, Heap.loadBuffer_eq here, ok_bind]
      rw [ih (i + 1) _ fun j hj => by
        have later := valid (j + 1) (by omega)
        rwa [show i + (j + 1) = i + 1 + j by omega] at later]
      rw [List.range'_succ, List.map_cons, computePushRelocUnfragmented, List.append_assoc]
      rfl

/-- `compute_push_reloc` lists the fragments of a buffer. -/
theorem computePushReloc_eq (self : h.ValidBuffer bo)
    (valid : ∀ i < (h.buffer bo).fragmentNumber, h.ValidBuffer (bo.add i))
    (relocs : List CsRelocGem) : computePushReloc h relocs bo = .ok (relocs ++
      (List.range' 0 (h.buffer bo).fragmentNumber).map fun j =>
        (h.buffer (bo.add j)).reloc) := by
  simp only [computePushReloc, Heap.loadBuffer_eq self, ok_bind]
  exact pushRelocLoop_eq _ 0 relocs (by simpa using valid)

/-- Buffer after buffer. -/
theorem foldlM_computePushReloc {bos : List BufPtr} (valid : ∀ bo ∈ bos, h.ValidBuffer bo ∧
      ∀ i < (h.buffer bo).fragmentNumber, h.ValidBuffer (bo.add i)) :
    ∀ relocs, bos.foldlM (computePushReloc h) relocs = .ok (relocs ++ bos.flatMap fun bo =>
      (List.range' 0 (h.buffer bo).fragmentNumber).map fun j => (h.buffer (bo.add j)).reloc) := by
  induction bos with
  | nil =>
      intro relocs
      rw [List.flatMap_nil, List.append_nil]
      rfl
  | cons bo bos ih =>
      intro relocs
      rw [List.forall_mem_cons] at valid
      rw [List.foldlM_cons, computePushReloc_eq valid.1.1 valid.1.2, ok_bind, ih valid.2,
        List.flatMap_cons, List.append_assoc]

end Relocations

/-! ## Waiting -/

def computeBoWaitUnfragmented (h : Heap) (boi : BufPtr) (w : CsWorld κ) :
    Except Fault (Int × CsWorld κ) := do
  let b ← h.loadBuffer boi
  let c ← h.contexts.load b.ctx
  let (ret, kernel) := drm.waitIdle c.fd b.handle w.kernel
  .ok (ret, { w with kernel })

/-- The loop of `compute_bo_wait`, from fragment `i` on. -/
def boWaitLoop (h : Heap) (boi : BufPtr) : Nat → Nat → CsWorld κ → Except Fault (Int × CsWorld κ)
  | 0, _, w => .ok (0, w)
  | count + 1, i, w => do
      let (ret, w) ← computeBoWaitUnfragmented drm h (boi.add i) w
      if ret ≠ 0 then .ok (ret, w) else boWaitLoop h boi count (i + 1) w

def computeBoWait (h : Heap) (boi : BufPtr) (w : CsWorld κ) : Except Fault (Int × CsWorld κ) := do
  let b ← h.loadBuffer boi
  boWaitLoop drm h boi b.fragmentNumber 0 w

/-- Every fragment of the buffer can be read, and so can its context. -/
structure Heap.Intact (h : Heap) (bo : BufPtr) : Prop where
  self : h.ValidBuffer bo
  valid : ∀ i < (h.buffer bo).fragmentNumber, h.ValidBuffer (bo.add i)
  ctxLive : ∀ i < (h.buffer bo).fragmentNumber, (h.buffer (bo.add i)).ctx ∈ h.contexts.live

theorem Fragmented.intact {h : Heap} {bo : BufPtr} {total : Nat}
    (buffer : Fragmented h bo total) : h.Intact bo where
  self := by simpa using buffer.valid 0 (fragmentCount_pos buffer.request.1)
  valid i hi := buffer.valid i (by rwa [buffer.number] at hi)
  ctxLive i hi := buffer.ctxLive i (by rwa [buffer.number] at hi)

section

variable {h : Heap} {bo : BufPtr}

theorem Heap.Intact.pushReloc (intact : h.Intact bo) (relocs : List CsRelocGem) :
    ∃ relocs', computePushReloc h relocs bo = .ok relocs' :=
  ⟨_, computePushReloc_eq intact.self intact.valid relocs⟩

theorem boWaitLoop_ok (count : Nat) : ∀ i (w : CsWorld κ),
    (∀ j < count, h.ValidBuffer (bo.add (i + j)) ∧
      (h.buffer (bo.add (i + j))).ctx ∈ h.contexts.live) →
      ∃ ret w', boWaitLoop drm h bo count i w = .ok (ret, w') ∧ w'.submitted = w.submitted := by
  induction count with
  | zero => intro i w _; exact ⟨0, w, rfl, rfl⟩
  | succ count ih =>
      intro i w valid
      obtain ⟨here, ctxLive⟩ := valid 0 (by omega)
      rw [Nat.add_zero] at here ctxLive
      simp only [boWaitLoop, computeBoWaitUnfragmented, Heap.loadBuffer_eq here, ok_bind,
        Store.load_eq ctxLive]
      split
      · exact ⟨_, _, rfl, rfl⟩
      · obtain ⟨ret, w', run, same⟩ := ih (i + 1) { w with kernel := _ } fun j hj => by
          have later := valid (j + 1) (by omega)
          rwa [show i + (j + 1) = i + 1 + j by omega] at later
        exact ⟨ret, w', run, same⟩

/-- Waiting hands nothing to the driver. -/
theorem Heap.Intact.boWait (intact : h.Intact bo) (w : CsWorld κ) :
    ∃ ret w', computeBoWait drm h bo w = .ok (ret, w') ∧ w'.submitted = w.submitted := by
  simp only [computeBoWait, Heap.loadBuffer_eq intact.self, ok_bind]
  apply boWaitLoop_ok
  intro j hj
  rw [Nat.zero_add]
  exact ⟨intact.valid j hj, intact.ctxLive j hj⟩

end

end RadeonsiCompute
