import RadeonsiCompute.Buffer.Each
import RadeonsiCompute.Cs.Relocs
import RadeonsiCompute.Dispatch.Code

/-!
# Waiting and flushing, as the code computes them

The retry loop of `compute_bo_wait_unfragmented`, `compute_flush_caches`,
`compute_send_dma_fence`, `compute_emit_compute_state` of `computesi.c`, and
`ComputeInterface::waitBuffer` and `asyncDMAFence` over them. The loop asks
until the driver answers something other than `-EBUSY`; `CsDrm.patient` is the
driver as it looks through the loop, which is how the other functions see it.
-/

namespace RadeonsiCompute

open Lib

/-- `-EBUSY`. -/
def eBusy : Int := -16

variable {κ : Type}

/-- The loop of `compute_bo_wait_unfragmented`, for `fuel` rounds at most. Here
`drm` answers each request once. -/
def waitIdleLoop (drm : CsDrm κ) (fd handle : Nat) : Nat → κ → Except Fault (Int × κ)
  | 0, _ => .error .diverges
  | fuel + 1, k =>
      let (ret, k) := drm.waitIdle fd handle k
      if ret = eBusy then waitIdleLoop drm fd handle fuel k else .ok (ret, k)

/-- `compute_bo_wait_unfragmented` with its loop. -/
def computeBoWaitUnfragmentedLoop (drm : CsDrm κ) (fuel : Nat) (h : Heap) (boi : BufPtr)
    (w : CsWorld κ) : Except Fault (Int × CsWorld κ) := do
  let b ← h.loadBuffer boi
  let c ← h.contexts.load b.ctx
  let (ret, kernel) ← waitIdleLoop drm c.fd b.handle fuel w.kernel
  .ok (ret, { w with kernel })

/-- The loop of `compute_bo_wait` from fragment `i` on, over the retry loop. -/
def boWaitRetryLoop (drm : CsDrm κ) (fuel : Nat) (h : Heap) (boi : BufPtr) :
    Nat → Nat → CsWorld κ → Except Fault (Int × CsWorld κ)
  | 0, _, w => .ok (0, w)
  | count + 1, i, w => do
      let (ret, w) ← computeBoWaitUnfragmentedLoop drm fuel h (boi.add i) w
      if ret ≠ 0 then .ok (ret, w) else boWaitRetryLoop drm fuel h boi count (i + 1) w

/-- `compute_bo_wait` with the retry loop, for `fuel` rounds at most for each
fragment. -/
def computeBoWaitRetry (drm : CsDrm κ) (fuel : Nat) (h : Heap) (boi : BufPtr) (w : CsWorld κ) :
    Except Fault (Int × CsWorld κ) := do
  let b ← h.loadBuffer boi
  boWaitRetryLoop drm fuel h boi b.fragmentNumber 0 w

/-- The driver behind the loop, which goes for `rounds` rounds. -/
def CsDrm.patient (drm : CsDrm κ) (rounds : Nat → Nat → κ → Nat) : CsDrm κ where
  cs := drm.cs
  waitIdle fd handle k :=
    match waitIdleLoop drm fd handle (rounds fd handle k) k with
    | .ok answer => answer
    | .error _ => (eBusy, k)

section Calls

variable (stale : Nat → Nat → CsRelocGem) (drm : CsDrm κ) (h : Heap) (ctx : Addr)

/-- `compute_flush_caches`. The table is not freed. -/
def computeFlushCaches (w : CsWorld κ) : Except Fault (Int × CsWorld κ) := do
  let crelocs ← ComputeRelocs.computeCreateRelocTable stale h ctx
  let c ← h.contexts.load ctx
  .ok (w.submit drm c.fd (radeonCs radeonCsRingCompute crelocs.entries cacheFlushBuf 1))

/-- `compute_emit_compute_state`: a dispatch with the table of the pool. -/
def computeEmitComputeState (state : ComputeState) (w : CsWorld κ) :
    Except Fault (Int × CsWorld κ) := do
  let crelocs ← ComputeRelocs.computeCreateRelocTable stale h ctx
  computeEmitComputeStateManualRelocs drm h ctx state crelocs.entries w

/-- `compute_send_dma_fence` sends nothing and only waits; what it waited for is
not looked at. -/
def computeSendDmaFence (bo : BufPtr) (w : CsWorld κ) : Except Fault (Int × CsWorld κ) := do
  let (_, w) ← computeBoWait drm h bo w
  .ok (0, w)

/-- `ComputeInterface::asyncDMAFence`. -/
def asyncDmaFence (bo : BufPtr) (w : CsWorld κ) : Except Fault (CsWorld κ) := do
  let (_, w) ← computeSendDmaFence drm h bo w
  .ok w

/-- `ComputeInterface::waitBuffer`, which looks at none of the three answers. -/
def waitBuffer (buf : BufPtr) (w : CsWorld κ) : Except Fault (CsWorld κ) := do
  let (_, w) ← computeBoWait drm h buf w
  let (_, w) ← computeFlushCaches stale drm h ctx w
  let (_, w) ← computeBoWait drm h buf w
  .ok w

end Calls

/-! ## What a submission says of itself -/

/-- The dwords of the chunks of one kind. -/
def RadeonCs.chunk (cs : RadeonCs) (chunkId : Nat) : List Dword :=
  (cs.chunks.filter fun c => c.chunkId == chunkId).flatMap CsChunk.chunkData

/-- The ring a submission asks for. -/
def RadeonCs.ring (cs : RadeonCs) : Option Dword := (cs.chunk radeonChunkIdFlags)[1]?

/-- The handles in a relocation chunk: the first dword of each entry. -/
def relocHandles : List Dword → List Dword
  | handle :: _ :: _ :: _ :: rest => handle :: relocHandles rest
  | _ => []

/-- The handles a submission lists. -/
def RadeonCs.handles (cs : RadeonCs) : List Dword := relocHandles (cs.chunk radeonChunkIdRelocs)

section

variable (ring : Dword) (relocs : List CsRelocGem) (buf : List Dword) (csId : Dword)

@[simp] theorem radeonCs_ring : (radeonCs ring relocs buf csId).ring = some ring := rfl

theorem relocHandles_dwords (relocs : List CsRelocGem) :
    relocHandles (relocs.flatMap CsRelocGem.dwords) =
      relocs.map fun r => BitVec.ofNat 32 r.handle := by
  induction relocs with
  | nil => rfl
  | cons r relocs ih =>
      rw [List.flatMap_cons, List.map_cons, ← ih]
      rfl

@[simp] theorem radeonCs_handles : (radeonCs ring relocs buf csId).handles =
    relocs.map fun r => BitVec.ofNat 32 r.handle := by
  rw [← relocHandles_dwords]
  show relocHandles (relocs.flatMap CsRelocGem.dwords ++ []) = _
  rw [List.append_nil]

end

end RadeonsiCompute
