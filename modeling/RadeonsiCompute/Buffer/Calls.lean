import RadeonsiCompute.Buffer.Owned

/-!
# What one allocation or release does

Specifications of `compute_vm_map`, `compute_free_gpu_buffer` and
`compute_alloc_gpu_buffer` over the relation `PoolOwned`. Each says that the
call returns, what it does to the pool and to the array it is about, that the
other buffers are untouched, and which requests the driver saw.
-/

namespace RadeonsiCompute

open Lib

variable {κ : Type} (drm : Drm κ)

/-! ## Mapping -/

/-- The `RADEON_VA_MAP` request for a fragment. -/
def mapRequest (vmId flags : Nat) (b : GpuBuffer) : GemVa :=
  { handle := b.handle, vmId, operation := radeonVaMap,
    flags := flags ||| radeonVmPageReadable ||| radeonVmPageWriteable, offset := b.va }

/-- The requests of `compute_vm_map` for fragments `i` to `i + count - 1`. -/
def Heap.mapRequests (h : Heap) (bo : BufPtr) (vmId flags i count : Nat) : List GemVa :=
  (List.range' i count).map fun j => mapRequest vmId flags (h.buffer (bo.add j))

/-- An answer that makes `compute_vm_map` give up. -/
def MapRefused (answer : Int × Nat) : Prop :=
  answer.1 ≠ 0 ∧ answer.2 = radeonVaResultError ∨ answer.2 = radeonVaResultVaExist

instance (answer : Int × Nat) : Decidable (MapRefused answer) :=
  inferInstanceAs (Decidable (_ ∧ _ ∨ _))

/-- The driver, in state `k`, granted each request in turn. -/
inductive Maps (fd : Nat) : κ → List GemVa → κ → Prop
  | nil {k} : Maps fd k [] k
  | cons {k k₁ k₂ va rest answer} : drm.gemVa fd va k = (answer, k₁) → ¬ MapRefused answer →
      Maps fd k₁ rest k₂ → Maps fd k (va :: rest) k₂

/-- The driver granted some of the requests and refused the next. -/
def MapStops (fd : Nat) (k : κ) (requests : List GemVa) (k' : κ) : Prop :=
  ∃ granted va later k₁ answer, requests = granted ++ va :: later ∧ Maps drm fd k granted k₁ ∧
    drm.gemVa fd va k₁ = (answer, k') ∧ MapRefused answer

/-- Granting one more request first. -/
theorem MapStops.cons {fd : Nat} {k k₁ k' : κ} {va : GemVa} {rest : List GemVa}
    {answer : Int × Nat} (create : drm.gemVa fd va k = (answer, k₁))
    (granted : ¬ MapRefused answer) (stops : MapStops drm fd k₁ rest k') :
    MapStops drm fd k (va :: rest) k' := by
  obtain ⟨before, va', later, k₂, answer', split, maps, refusal, refused⟩ := stops
  exact ⟨va :: before, va', later, k₂, answer', by simp [split], .cons create granted maps,
    refusal, refused⟩

/-- The map loop leaves the heap alone and stops at the first refusal. -/
theorem vmMapLoop_spec {fd vmId flags : Nat} {bo : BufPtr} (count : Nat) :
    ∀ (i : Nat) (w : World κ), (∀ j < count, w.heap.ValidBuffer (bo.add (i + j))) →
      ∃ r kernel, vmMapLoop drm fd bo vmId flags count i w = .ok (r, { w with kernel }) ∧
        (r = 0 ∧ Maps drm fd w.kernel (w.heap.mapRequests bo vmId flags i count) kernel ∨
          r = -1 ∧ MapStops drm fd w.kernel (w.heap.mapRequests bo vmId flags i count) kernel) := by
  induction count with
  | zero =>
      intro i w _
      exact ⟨0, w.kernel, rfl, .inl ⟨rfl, .nil⟩⟩
  | succ count ih =>
      intro i w valid
      have here : w.heap.ValidBuffer (bo.add i) := by simpa using valid 0 (by omega)
      have requests : w.heap.mapRequests bo vmId flags i (count + 1) =
          mapRequest vmId flags (w.heap.buffer (bo.add i)) ::
            w.heap.mapRequests bo vmId flags (i + 1) count := by
        simp [Heap.mapRequests, List.range'_succ]
      simp only [vmMapLoop, Heap.loadBuffer_eq here, ok_bind, requests]
      cases reply : drm.gemVa fd (mapRequest vmId flags (w.heap.buffer (bo.add i))) w.kernel with
      | mk answer kernel =>
          have reply' := reply
          unfold mapRequest at reply'
          by_cases refused : MapRefused answer
          · refine ⟨-1, kernel, ?_, .inr ⟨rfl, [], _, _, w.kernel, answer, rfl, .nil, reply, refused⟩⟩
            rcases refused with failed | exists_
            · simp only [reply', if_pos failed]
            · by_cases failed : answer.1 ≠ 0 ∧ answer.2 = radeonVaResultError
              · simp only [reply', if_pos failed]
              · simp only [reply', if_neg failed, if_pos exists_]
          · have notFailed : ¬ (answer.1 ≠ 0 ∧ answer.2 = radeonVaResultError) :=
              fun failed => refused (.inl failed)
            have notExist : ¬ answer.2 = radeonVaResultVaExist := fun same => refused (.inr same)
            obtain ⟨r, kernel', run, outcome⟩ := ih (i + 1) { w with kernel } (by
              intro j hj
              have := valid (j + 1) (by omega)
              rwa [show i + (j + 1) = i + 1 + j by omega] at this)
            refine ⟨r, kernel', ?_, ?_⟩
            · simp only [reply', if_neg notFailed, if_neg notExist]
              exact run
            · rcases outcome with ⟨zero, maps⟩ | ⟨minus, stops⟩
              · exact .inl ⟨zero, .cons reply refused maps⟩
              · exact .inr ⟨minus, stops.cons drm reply refused⟩

/-- `compute_vm_map` of an allocated buffer returns 0 or -1 and changes no memory. -/
theorem computeVmMap_spec {w : World κ} {ctx : Addr} {bo : BufPtr} (vmId flags : Nat)
    (ctxLive : ctx ∈ w.heap.contexts.live) (valid : w.heap.ValidBuffer bo)
    (fragments : ∀ j < (w.heap.buffer bo).fragmentNumber, w.heap.ValidBuffer (bo.add j)) :
    ∃ r kernel, computeVmMap drm w ctx bo vmId flags = .ok (r, { w with kernel }) ∧
      (r = 0 ∧ Maps drm (w.heap.contexts.cell ctx).fd w.kernel
          (w.heap.mapRequests bo vmId flags 0 (w.heap.buffer bo).fragmentNumber) kernel ∨
        r = -1 ∧ MapStops drm (w.heap.contexts.cell ctx).fd w.kernel
          (w.heap.mapRequests bo vmId flags 0 (w.heap.buffer bo).fragmentNumber) kernel) := by
  obtain ⟨r, kernel, run, outcome⟩ := @vmMapLoop_spec κ drm (w.heap.contexts.cell ctx).fd vmId
    flags bo (w.heap.buffer bo).fragmentNumber 0 w (by simpa using fragments)
  refine ⟨r, kernel, ?_, outcome⟩
  simp only [computeVmMap, Heap.loadBuffer_eq valid, Store.load_eq ctxLive, ok_bind]
  exact run

/-! ## Releasing -/

/-- The heap after the array of a buffer is freed. -/
def Heap.dropArray (h : Heap) (bo : BufPtr) : Heap :=
  { h with buffers := { h.buffers with live := h.buffers.live.erase bo.block } }

theorem Heap.freeBuffer_eq {h : Heap} {bo : BufPtr} (index : bo.index = 0)
    (live : bo.block ∈ h.buffers.live) : h.freeBuffer bo = .ok (h.dropArray bo) := by
  rw [freeBuffer, if_pos index, Store.free_eq live]
  rfl

@[simp] theorem Heap.dropArray_buffer (h : Heap) (bo p : BufPtr) :
    (h.dropArray bo).buffer p = h.buffer p := rfl

/-- Freeing the array of a buffer outside the relation. -/
theorem PoolOwned.dropArray {h : Heap} {ctx : Addr} {bufs : Finset BufPtr} {rest : List Addr}
    (inv : PoolOwned h ctx bufs rest) {bo : BufPtr} (apart : ∀ b ∈ bufs, b.block ≠ bo.block) :
    PoolOwned (h.dropArray bo) ctx bufs rest := by
  refine inv.frame rfl rfl ?_ (fun _ _ => rfl) (fun _ _ _ _ => rfl)
  intro b hb
  exact Finset.mem_erase.mpr ⟨apart b hb, (inv.buffers b hb).live⟩

/-- Distinct live buffers are distinct arrays. -/
theorem PoolOwned.apart {h : Heap} {ctx : Addr} {bufs : Finset BufPtr} {rest : List Addr}
    (inv : PoolOwned h ctx bufs rest) {bo : BufPtr} (hbo : bo ∈ bufs) :
    ∀ b ∈ bufs.erase bo, b.block ≠ bo.block := by
  intro b hb same
  exact Finset.ne_of_mem_erase hb (inv.eq_of_block (Finset.mem_of_mem_erase hb) hbo same)

/-- Releasing `bo` made heap `h'` out of `h`. -/
structure Released (h h' : Heap) (ctx : Addr) (bufs : Finset BufPtr) (rest : List Addr)
    (bo : BufPtr) (rest' : List Addr) : Prop where
  owned : PoolOwned h' ctx (bufs.erase bo) rest'
  contexts : h'.contexts = h.contexts
  sentinel : h'.sentinel ctx = h.sentinel ctx
  entries : h'.entries rest' = release bo (h.entries rest)
  buffer : ∀ p, h'.buffer p = h.buffer p

/-- `compute_free_gpu_buffer` of a live buffer takes its ranges out of the
pool, frees its array, and closes the handle of its first fragment. No node
joins the pool. -/
theorem computeFreeGpuBuffer_released {w : World κ} {ctx : Addr} {bufs : Finset BufPtr}
    {rest : List Addr} (inv : PoolOwned w.heap ctx bufs rest) {bo : BufPtr} (hbo : bo ∈ bufs)
    (mapped : (w.heap.buffer bo).va ≠ 0) :
    ∃ h' rest', computeFreeGpuBuffer drm w bo = .ok
        { heap := h', kernel := drm.gemClose (w.heap.contexts.cell ctx).fd
            (w.heap.buffer bo).handle w.kernel } ∧
      Released w.heap h' ctx bufs rest bo rest' ∧ ∀ a ∈ rest', a ∈ rest := by
  have live := inv.buffers bo hbo
  obtain ⟨h₁, rest', run, inv₁, shrank, sentinel, entries, sub⟩ := inv.poolFree hbo
  have arrayLive : bo.block ∈ h₁.buffers.live := by
    rw [shrank.buffers]; exact live.live
  refine ⟨h₁.dropArray bo, rest', ?_, ⟨inv₁.dropArray (inv.apart hbo), shrank.contexts, sentinel,
    entries, fun p => ?_⟩, sub⟩
  · simp only [computeFreeGpuBuffer, Heap.loadBuffer_eq (inv.validBuffer_self hbo), ok_bind,
      if_pos mapped, live.ctx, run, computeVmUnmap, shrank.contexts, Store.load_eq inv.ctxLive,
      Heap.freeBuffer_eq live.index arrayLive]
  · rw [Heap.dropArray_buffer, shrank.buffer]

theorem computeFreeGpuBuffer_spec {w : World κ} {ctx : Addr} {bufs : Finset BufPtr}
    {rest : List Addr} (inv : PoolOwned w.heap ctx bufs rest) {bo : BufPtr} (hbo : bo ∈ bufs)
    (mapped : (w.heap.buffer bo).va ≠ 0) :
    ∃ h' rest', computeFreeGpuBuffer drm w bo = .ok
        { heap := h', kernel := drm.gemClose (w.heap.contexts.cell ctx).fd
            (w.heap.buffer bo).handle w.kernel } ∧
      Released w.heap h' ctx bufs rest bo rest' := by
  obtain ⟨h', rest', run, released, -⟩ := computeFreeGpuBuffer_released drm inv hbo mapped
  exact ⟨h', rest', run, released⟩

/-- `compute_free_gpu_buffer` of an array without an address only frees it and
closes the handle of its first fragment. -/
theorem computeFreeGpuBuffer_unmapped {w : World κ} {ctx : Addr} {bo : BufPtr}
    (ctxLive : ctx ∈ w.heap.contexts.live) (valid : w.heap.ValidBuffer bo)
    (index : bo.index = 0) (owner : (w.heap.buffer bo).ctx = ctx)
    (unmapped : (w.heap.buffer bo).va = 0) :
    computeFreeGpuBuffer drm w bo = .ok
      { heap := w.heap.dropArray bo, kernel := drm.gemClose (w.heap.contexts.cell ctx).fd
          (w.heap.buffer bo).handle w.kernel } := by
  have notMapped : ¬ (w.heap.buffer bo).va ≠ 0 := by simpa using unmapped
  simp only [computeFreeGpuBuffer, Heap.loadBuffer_eq valid, ok_bind, if_neg notMapped, owner,
    Store.load_eq ctxLive, Heap.freeBuffer_eq index valid.1]

end RadeonsiCompute
