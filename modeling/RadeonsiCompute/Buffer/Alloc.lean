import RadeonsiCompute.Buffer.Calls
import RadeonsiCompute.Pool.Inverse

/-!
# What one allocation does

`compute_alloc_gpu_buffer` with a driver that grants every `GEM_CREATE`: the
new buffer joins the pool (`Allocated`), and then either all its fragments are
mapped and it is returned, or the driver refuses one and everything but the
handles after the first is undone (`Abandoned`).
-/

namespace RadeonsiCompute

open Lib

/-- The `GEM_CREATE` requests of an allocation. -/
def createRequests (wholeSize domain alignment : Nat) : List GemCreate :=
  (List.range' 0 (fragmentCount wholeSize)).map (createArgs wholeSize domain alignment)

/-- The first fragment, which is all `compute_pool_alloc` looks at. -/
abbrev firstFragment (ctx : Addr) (wholeSize domain alignment : Nat) (handles : List Nat) :
    GpuBuffer :=
  fragment ctx wholeSize domain alignment (handles.headD 0) 0

/-- Heap `h'` is `h` with the buffer `bo` added, its ranges in the pool. -/
structure Allocated (h h' : Heap) (ctx : Addr) (bufs : Finset BufPtr) (rest : List Addr)
    (wholeSize domain alignment : Nat) (bo : BufPtr) (handles : List Nat) (rest' : List Addr) :
    Prop where
  new : bo ∉ bufs
  owned : PoolOwned h' ctx (insert bo bufs) rest'
  contexts : h'.contexts = h.contexts
  sentinel : h'.sentinel ctx = h.sentinel ctx
  placed : h'.sentinel ctx :: h'.entries rest' =
    place bo (firstFragment ctx wholeSize domain alignment handles) (rangeSizes wholeSize)
      (h.sentinel ctx :: h.entries rest)
  count : handles.length = fragmentCount wholeSize
  fragments : ∀ j (_ : j < handles.length), h'.buffer (bo.add j) =
    { fragment ctx wholeSize domain alignment handles[j] j with va := (h'.buffer (bo.add j)).va }
  others : ∀ b ∈ bufs, ∀ p : BufPtr, p.block = b.block → h'.buffer p = h.buffer p

/-- Heap `h'` has the pool and the buffers of `h`. -/
structure Abandoned (h h' : Heap) (ctx : Addr) (bufs : Finset BufPtr) (rest rest' : List Addr) :
    Prop where
  owned : PoolOwned h' ctx bufs rest'
  contexts : h'.contexts = h.contexts
  sentinel : h'.sentinel ctx = h.sentinel ctx
  entries : h'.entries rest' = h.entries rest
  others : ∀ b ∈ bufs, ∀ p : BufPtr, p.block = b.block → h'.buffer p = h.buffer p

section

variable {κ : Type} (drm : Drm κ) {h h' : Heap} {ctx : Addr} {bufs : Finset BufPtr}
  {rest rest' : List Addr} {wholeSize domain alignment : Nat} {bo : BufPtr} {handles : List Nat}

theorem Allocated.number (alloc : Allocated h h' ctx bufs rest wholeSize domain alignment bo
    handles rest') (ok : RequestOk wholeSize) :
    (h'.buffer bo).fragmentNumber = fragmentCount wholeSize := by
  have positive := fragmentCount_pos ok.1
  have first := alloc.fragments 0 (by rw [alloc.count]; exact positive)
  rw [BufPtr.add_zero] at first
  rw [first, fragment_fragmentNumber, if_pos rfl]

theorem Allocated.handle (alloc : Allocated h h' ctx bufs rest wholeSize domain alignment bo
    handles rest') (ok : RequestOk wholeSize) : (h'.buffer bo).handle = handles.headD 0 := by
  have positive := fragmentCount_pos ok.1
  have first := alloc.fragments 0 (by rw [alloc.count]; exact positive)
  rw [BufPtr.add_zero] at first
  rw [first]
  cases handles with
  | nil => rw [← alloc.count] at positive; exact absurd positive (by simp)
  | cons handle handles => rfl

/-- The arrays of the other buffers are other arrays. -/
theorem Allocated.apart (alloc : Allocated h h' ctx bufs rest wholeSize domain alignment bo
    handles rest') : ∀ b ∈ bufs, b.block ≠ bo.block := by
  have apart := alloc.owned.apart (Finset.mem_insert_self bo bufs)
  rwa [Finset.erase_insert alloc.new] at apart

/-- No old range belongs to the new buffer. -/
theorem Allocated.foreign (inv : PoolOwned h ctx bufs rest)
    (alloc : Allocated h h' ctx bufs rest wholeSize domain alignment bo handles rest') :
    ∀ e ∈ h.sentinel ctx :: h.entries rest, e.parentBo ≠ bo := by
  intro e member same
  rcases List.mem_cons.mp member with rfl | inRest
  · refine alloc.owned.foreign ?_
    rw [alloc.sentinel, same]
    exact Finset.mem_insert_self bo bufs
  · exact alloc.new (same ▸ (inv.owned e inRest).1)

/-- The pool list of a heap with the same nodes and contexts. -/
theorem PoolOwned.poolOf {h₁ : Heap} (inv : PoolOwned h ctx bufs rest) (nodes : h₁.nodes = h.nodes)
    (contexts : h₁.contexts = h.contexts) :
    IsPool h₁ (h₁.contexts.cell ctx).vmPool (h.vmPool ctx :: rest) := by
  have old := inv.pool
  unfold Heap.vmPool at old ⊢
  rw [contexts]
  exact ⟨old.head_eq, by simpa only [nodes] using old.linked,
    by simpa only [nodes] using old.live, old.nodup⟩

/-! ## The array before it is in the pool -/

section NewBuffer

variable (new : NewBuffer ctx wholeSize domain alignment h h' bo handles)
  (count : handles.length = fragmentCount wholeSize)

include new count

theorem NewBuffer.first (ok : RequestOk wholeSize) :
    h'.buffer bo = firstFragment ctx wholeSize domain alignment handles := by
  have positive := fragmentCount_pos ok.1
  have first := new.fragment 0 (by omega)
  rw [BufPtr.add_zero] at first
  rw [first]
  cases handles with
  | nil => rw [← count] at positive; exact absurd positive (by simp)
  | cons handle handles => rfl

theorem NewBuffer.number (ok : RequestOk wholeSize) :
    (h'.buffer bo).fragmentNumber = fragmentCount wholeSize := by
  rw [new.first count ok, fragment_fragmentNumber, if_pos rfl]

theorem NewBuffer.page (ok : RequestOk wholeSize) : (h'.buffer bo).vaSize % 4096 = 0 := by
  rw [new.first count ok, fragment_vaSize]
  exact Nat.mod_eq_zero_of_dvd (vaSizeOf_page fragmentBytes_le)

theorem NewBuffer.fragmentSizes :
    h'.fragmentSizes bo 0 (fragmentCount wholeSize) = rangeSizes wholeSize := by
  refine List.map_congr_left fun j member => ?_
  have inRange : j < fragmentCount wholeSize := by simpa using member
  rw [new.fragment j (by omega), fragment_vaSize]

theorem NewBuffer.liveBuffer (ok : RequestOk wholeSize) : LiveBuffer h' ctx bo where
  index := new.index
  live := by rw [new.buffersLive]; exact Finset.mem_insert_self _ _
  count := by rw [new.count, new.number count ok]
  positive := by rw [new.number count ok]; exact fragmentCount_pos ok.1
  ctx := by rw [new.first count ok]; rfl

end NewBuffer

/-- The array that `compute_alloc_fragmented_buffer` fills takes its ranges
from the pool; no other array is written. -/
theorem PoolOwned.allocated_grew (inv : PoolOwned h ctx bufs rest) (libc : Libc)
    (ok : RequestOk wholeSize) (foreign : (h.sentinel ctx).parentBo ≠ bo)
    (new : NewBuffer ctx wholeSize domain alignment h h' bo handles)
    (count : handles.length = fragmentCount wholeSize) :
    ∃ h'' rest'' news, computePoolAlloc libc h' ctx bo = .ok h'' ∧
      Allocated h h'' ctx bufs rest wholeSize domain alignment bo handles rest'' ∧
      Grew h' h'' (h.vmPool ctx :: rest) news ∧
      (∀ p : BufPtr, p.block ≠ bo.block → h''.buffer p = h'.buffer p) ∧
      ∀ a ∈ rest'', a ∈ rest ∨ a ∈ news := by
  have first := new.first count ok
  have number := new.number count ok
  have inv₁ := inv.newBuffer new
  have isNew : bo ∉ bufs := fun member => new.fresh (inv.buffers bo member).live
  have sentinel₁ : h'.sentinel ctx = h.sentinel ctx :=
    Heap.sentinel_congr new.contexts (by rw [new.nodes])
  obtain ⟨h'', rest'', news, run, owned, grew, other, sentinel, placed, members⟩ :=
    inv₁.poolAlloc libc (new.liveBuffer count ok) isNew (sentinel₁ ▸ foreign) (new.page count ok)
  have vmPool := Heap.vmPool_congr new.contexts ctx
  refine ⟨h'', rest'', news, run, ⟨isNew, owned, ?_, ?_, ?_, count, ?_, ?_⟩, vmPool ▸ grew, other,
    members⟩
  · rw [grew.contexts, new.contexts]
  · rw [sentinel, sentinel₁]
  · have sizes : h'.fragmentSizes bo 0 (h'.buffer bo).fragmentNumber = rangeSizes wholeSize := by
      rw [number, new.fragmentSizes count]
    have entries : h'.entries rest = h.entries rest :=
      Heap.entries_congr fun a _ => by rw [new.nodes]
    rw [placed, sizes, sentinel₁, entries, first]
  · intro j hj
    rw [grew.fields, new.fragment j hj]
  · intro b hb p same
    have old : p.block ≠ bo.block := by
      rw [same]
      intro equal
      exact new.fresh (equal ▸ (inv.buffers b hb).live)
    rw [other p old, new.other p old]

/-- The array that `compute_alloc_fragmented_buffer` fills takes its ranges
from the pool. -/
theorem PoolOwned.allocated (inv : PoolOwned h ctx bufs rest) (libc : Libc)
    (ok : RequestOk wholeSize) (foreign : (h.sentinel ctx).parentBo ≠ bo)
    (new : NewBuffer ctx wholeSize domain alignment h h' bo handles)
    (count : handles.length = fragmentCount wholeSize) :
    ∃ h'' rest'', computePoolAlloc libc h' ctx bo = .ok h'' ∧
      Allocated h h'' ctx bufs rest wholeSize domain alignment bo handles rest'' := by
  obtain ⟨h'', rest'', news, run, alloc, -⟩ := inv.allocated_grew libc ok foreign new count
  exact ⟨h'', rest'', run, alloc⟩

/-- The ranges of the new buffer, one for each fragment, joined the old ones. -/
theorem Allocated.entries_perm
    (alloc : Allocated h h' ctx bufs rest wholeSize domain alignment bo handles rest') :
    ∃ news, (h'.entries rest').Perm (h.entries rest ++ news) ∧
      news.map PoolEntry.bo = (List.range' 0 (fragmentCount wholeSize)).map bo.add ∧
      news.map PoolEntry.size = rangeSizes wholeSize := by
  obtain ⟨news, perm, bos, sizes, -⟩ := @place_perm bo
    (firstFragment ctx wholeSize domain alignment handles) (rangeSizes wholeSize)
    (h.sentinel ctx :: h.entries rest) (by simp) rangeSizes_single
  rw [← alloc.placed, alloc.sentinel] at perm
  rw [rangeSizes_length] at bos
  exact ⟨news, List.Perm.cons_inv perm, bos, sizes⟩

/-- With no address past 2^64, the ranges stay laid out in order. -/
theorem Allocated.layout
    (alloc : Allocated h h' ctx bufs rest wholeSize domain alignment bo handles rest')
    (layout : PoolLayout (h.sentinel ctx) (h.entries rest))
    (below : Below (h'.sentinel ctx :: h'.entries rest')) :
    PoolLayout (h'.sentinel ctx) (h'.entries rest') := by
  have sizePages : ∀ size ∈ rangeSizes wholeSize, 4096 ∣ size := by
    intro size member
    obtain ⟨j, -, rfl⟩ := List.mem_map.mp member
    exact vaSizeOf_page fragmentBytes_le
  have sizePos : ∀ size ∈ rangeSizes wholeSize, 0 < size := by
    intro size member
    obtain ⟨j, inRange, rfl⟩ := List.mem_map.mp member
    exact vaSizeOf_pos (fragmentBytes_pos (by simpa using inRange)) fragmentBytes_le
  obtain ⟨news, perm, -, sizes⟩ := alloc.entries_perm
  refine ⟨?_, ?_, ?_, below, ?_⟩
  · rw [alloc.sentinel, layout.base]
  · rw [alloc.placed] at below ⊢
    exact place_ordered layout.ordered below
  · intro e member
    rcases List.mem_cons.mp member with rfl | inRest
    · rw [alloc.sentinel]
      exact layout.positive _ List.mem_cons_self
    rcases List.mem_append.mp (perm.mem_iff.mp inRest) with old | isNew
    · exact layout.positive e (List.mem_cons_of_mem _ old)
    · refine sizePos e.size ?_
      rw [← sizes]
      exact List.mem_map_of_mem isNew
  · rw [alloc.placed, alloc.sentinel]
    intro page
    refine place_pages (layout.pages page) ?_ sizePages
    rw [fragment_vaSize]
    exact vaSizeOf_page fragmentBytes_le

/-- Undoing an allocation: its ranges leave the pool and its array is freed. -/
theorem Allocated.undo (inv : PoolOwned h ctx bufs rest)
    (alloc : Allocated h h' ctx bufs rest wholeSize domain alignment bo handles rest')
    (ok : RequestOk wholeSize) (k : κ) :
    ∃ h₁ h₂ rest'', computePoolFree h' ctx bo = .ok h₁ ∧
      (h₁.modifyBuffer bo fun b => { b with va := 0 }) = .ok h₂ ∧
      computeFreeGpuBuffer drm { heap := h₂, kernel := k } bo = .ok
        { heap := h₂.dropArray bo, kernel := drm.gemClose (h.contexts.cell ctx).fd
            (handles.headD 0) k } ∧
      Abandoned h (h₂.dropArray bo) ctx bufs rest rest'' := by
  have member : bo ∈ insert bo bufs := Finset.mem_insert_self bo bufs
  have live := alloc.owned.buffers bo member
  obtain ⟨h₁, rest'', run, inv₁, shrank, sentinel, entries, -⟩ := alloc.owned.poolFree member
  rw [Finset.erase_insert alloc.new] at inv₁
  have valid : h₁.ValidBuffer bo := by
    have := alloc.owned.validBuffer_self member
    simpa only [Heap.ValidBuffer, shrank.buffers] using this
  have written := Heap.modifyBuffer_eq valid fun b => { b with va := 0 }
  generalize cleared : h₁.setBuffer bo { h₁.buffer bo with va := 0 } = h₂ at written
  have contexts : h₂.contexts = h.contexts := by
    rw [← cleared, Heap.setBuffer_contexts, shrank.contexts, alloc.contexts]
  have nodes : h₂.nodes = h₁.nodes := by
    rw [← cleared, Heap.setBuffer_nodes]
  have own : h₂.buffer bo = { h'.buffer bo with va := 0 } := by
    rw [← cleared, Heap.buffer_setBuffer, if_pos rfl, shrank.buffer]
  have other : ∀ b ∈ bufs, ∀ p : BufPtr, p.block = b.block → h₂.buffer p = h₁.buffer p := by
    intro b hb p same
    rw [← cleared, Heap.buffer_setBuffer, if_neg]
    rintro rfl
    exact alloc.apart b hb same.symm
  have inv₂ : PoolOwned h₂ ctx bufs rest'' := by
    refine inv₁.frame nodes ?_ ?_ ?_ other
    · rw [contexts, shrank.contexts, alloc.contexts]
    · intro b hb
      rw [← cleared, Heap.setBuffer_live]
      exact (inv₁.buffers b hb).live
    · intro b _
      rw [← cleared, Heap.setBuffer_count]
  refine ⟨h₁, h₂, rest'', run, written, ?_, inv₂.dropArray alloc.apart, contexts, ?_, ?_, ?_⟩
  · have valid₂ : h₂.ValidBuffer bo := by
      rw [← cleared]; exact Heap.validBuffer_setBuffer.mpr valid
    have unmapped := computeFreeGpuBuffer_unmapped drm (w := { heap := h₂, kernel := k })
      inv₂.ctxLive valid₂ live.index (by rw [own]; exact live.ctx) (by rw [own])
    rw [unmapped, contexts, own]
    simp only [alloc.handle ok]
  · have : (h₂.dropArray bo).sentinel ctx = h₁.sentinel ctx := by
      simp only [Heap.sentinel, Heap.vmPool, Heap.dropArray, nodes, contexts, shrank.contexts,
        alloc.contexts]
    rw [this, sentinel, alloc.sentinel]
  · have same : (h₂.dropArray bo).entries rest'' = h₁.entries rest'' :=
      Heap.entries_congr fun a _ => by rw [← nodes]; rfl
    have back : release bo (h'.sentinel ctx :: h'.entries rest') =
        h.sentinel ctx :: h.entries rest := by
      rw [alloc.placed]
      exact release_place (alloc.foreign inv)
    have keep : (h'.sentinel ctx).parentBo ≠ bo := by
      rw [alloc.sentinel]
      exact alloc.foreign inv _ List.mem_cons_self
    rw [release, List.filter_cons_of_pos (by simpa using keep)] at back
    rw [same, entries]
    exact (List.cons.inj back).2
  · intro b hb p same
    rw [Heap.dropArray_buffer, other b hb p same, shrank.buffer, alloc.others b hb p same]

/-- Undoing an allocation leaves every node as it was before. -/
theorem Allocated.undo_nodes (inv : PoolOwned h ctx bufs rest) (libc : Libc)
    (ok : RequestOk wholeSize) (foreign : (h.sentinel ctx).parentBo ≠ bo)
    {h₁ h₂ : Heap} (new : NewBuffer ctx wholeSize domain alignment h h₁ bo handles)
    (count : handles.length = fragmentCount wholeSize)
    (placed : computePoolAlloc libc h₁ ctx bo = .ok h')
    (freed : computePoolFree h' ctx bo = .ok h₂) : SameNodes h h₂ := by
  have others : ∀ a ∈ h.vmPool ctx :: rest, (h₁.nodes.cell a).parentBo ≠ bo := by
    intro a member same
    rw [new.nodes] at same
    rcases List.mem_cons.mp member with rfl | inRest
    · exact foreign same
    · have parentIn := (inv.owned _ (h.entry_mem inRest)).1
      rw [same] at parentIn
      exact new.fresh (inv.buffers bo parentIn).live
  have live := new.liveBuffer count ok
  obtain ⟨h₃, h₄, alloc, free, -, same, -⟩ := computePoolAlloc_free libc
    (by rw [new.contexts]; exact inv.ctxLive) (inv.poolOf new.nodes new.contexts) others
    (fun _ => live.valid) live.positive (new.page count ok)
  obtain rfl : h₃ = h' := by simpa [placed] using alloc.symm
  obtain rfl : h₄ = h₂ := by simpa [freed] using free.symm
  refine ⟨?_, ?_⟩
  · rw [same.live, new.nodes]
  · intro a live
    rw [same.cell a (by rw [new.nodes]; exact live), new.nodes]

/-- **Outcomes of `compute_alloc_gpu_buffer`**, whatever the driver answers:
a fragment could not be created and the `NULL` is dereferenced, or the buffer
is in the pool and mapped, or the driver refused to map a fragment and the pool
is what it was. -/
theorem computeAllocGpuBuffer_outcomes (libc : Libc) {w : World κ} {alignment : Int}
    (inv : PoolOwned w.heap ctx bufs rest) (ok : RequestOk wholeSize)
    (foreign : (w.heap.sentinel ctx).parentBo ≠ ⟨libc.buffer.choose w.heap.buffers.live, 0⟩) :
    (∃ handles k k', computeAllocGpuBuffer drm libc w ctx wholeSize domain alignment =
        .error .nullDeref ∧ handles.length < fragmentCount wholeSize ∧
      Creates drm (w.heap.contexts.cell ctx).fd w.kernel
        ((List.range' 0 handles.length).map (createArgs wholeSize domain (toU64 alignment)))
        handles k ∧
      drm.gemCreate (w.heap.contexts.cell ctx).fd
        (createArgs wholeSize domain (toU64 alignment) handles.length) k = (none, k')) ∨
    ∃ bo handles h' rest' k₁ k₂, bo = ⟨libc.buffer.choose w.heap.buffers.live, 0⟩ ∧
      Allocated w.heap h' ctx bufs rest wholeSize domain (toU64 alignment) bo handles rest' ∧
      Creates drm (w.heap.contexts.cell ctx).fd w.kernel
        (createRequests wholeSize domain (toU64 alignment)) handles k₁ ∧
      (computeAllocGpuBuffer drm libc w ctx wholeSize domain alignment =
          .ok (some bo, { heap := h', kernel := k₂ }) ∧
        Maps drm (w.heap.contexts.cell ctx).fd k₁
          (h'.mapRequests bo 0 radeonVmPageSnooped 0 (fragmentCount wholeSize)) k₂ ∨
      ∃ h'' rest'', computeAllocGpuBuffer drm libc w ctx wholeSize domain alignment =
          .ok (none, { heap := h'', kernel :=
            drm.gemClose (w.heap.contexts.cell ctx).fd (handles.headD 0) k₂ }) ∧
        MapStops drm (w.heap.contexts.cell ctx).fd k₁
          (h'.mapRequests bo 0 radeonVmPageSnooped 0 (fragmentCount wholeSize)) k₂ ∧
        Abandoned w.heap h'' ctx bufs rest rest'' ∧ SameNodes w.heap h'') := by
  obtain ⟨result, handles, w₁, run, new, outcome⟩ :=
    @computeAllocFragmentedBuffer_spec κ drm ctx wholeSize domain libc w alignment ok inv.ctxLive
  rcases outcome with ⟨rfl, count, created⟩ | ⟨rfl, count, k, created, refusal⟩
  · refine .inr ?_
    generalize (⟨libc.buffer.choose w.heap.buffers.live, 0⟩ : BufPtr) = bo at foreign run new
    obtain ⟨h', rest', place, alloc⟩ := inv.allocated libc ok foreign new count
    have member : bo ∈ insert bo bufs := Finset.mem_insert_self bo bufs
    obtain ⟨r, k₂, map, mapped⟩ := computeVmMap_spec drm (w := { heap := h', kernel := w₁.kernel })
      0 radeonVmPageSnooped alloc.owned.ctxLive (alloc.owned.validBuffer_self member)
      (fun j => alloc.owned.validBuffer member)
    rw [alloc.contexts, alloc.number ok] at mapped
    refine ⟨bo, handles, h', rest', w₁.kernel, k₂, rfl, alloc, created, ?_⟩
    rcases mapped with ⟨rfl, maps⟩ | ⟨rfl, stops⟩
    · refine .inl ⟨?_, maps⟩
      simp [computeAllocGpuBuffer, run, place, map]
    · obtain ⟨h₁, h₂, rest'', unpool, clear, free, abandoned⟩ := alloc.undo drm inv ok k₂
      have same : SameNodes w.heap h₁ :=
        Allocated.undo_nodes inv libc ok foreign new count place unpool
      have nodes : (h₂.dropArray bo).nodes = h₁.nodes := by
        rw [← Heap.modifyBuffer_nodes clear]
        rfl
      refine .inr ⟨h₂.dropArray bo, rest'', ?_, stops, abandoned, ?_⟩
      · simp [computeAllocGpuBuffer, run, place, map, unpool, clear, free]
      · exact ⟨by rw [nodes]; exact same.live, by rw [nodes]; exact same.cell⟩
  · refine .inl ⟨handles, k, w₁.kernel, ?_, count, created, refusal⟩
    simp [computeAllocGpuBuffer, run]

/-- The outcomes when every `GEM_CREATE` is granted. -/
theorem computeAllocGpuBuffer_spec (libc : Libc) {w : World κ} {alignment : Int}
    (inv : PoolOwned w.heap ctx bufs rest) (ok : RequestOk wholeSize)
    (foreign : (w.heap.sentinel ctx).parentBo ≠ ⟨libc.buffer.choose w.heap.buffers.live, 0⟩)
    (creates : ∀ fd args k, (drm.gemCreate fd args k).1 ≠ none) :
    ∃ bo handles h' rest' k₁ k₂,
      Allocated w.heap h' ctx bufs rest wholeSize domain (toU64 alignment) bo handles rest' ∧
      Creates drm (w.heap.contexts.cell ctx).fd w.kernel
        (createRequests wholeSize domain (toU64 alignment)) handles k₁ ∧
      (computeAllocGpuBuffer drm libc w ctx wholeSize domain alignment =
          .ok (some bo, { heap := h', kernel := k₂ }) ∧
        Maps drm (w.heap.contexts.cell ctx).fd k₁
          (h'.mapRequests bo 0 radeonVmPageSnooped 0 (fragmentCount wholeSize)) k₂ ∨
      ∃ h'' rest'', computeAllocGpuBuffer drm libc w ctx wholeSize domain alignment =
          .ok (none, { heap := h'', kernel :=
            drm.gemClose (w.heap.contexts.cell ctx).fd (handles.headD 0) k₂ }) ∧
        MapStops drm (w.heap.contexts.cell ctx).fd k₁
          (h'.mapRequests bo 0 radeonVmPageSnooped 0 (fragmentCount wholeSize)) k₂ ∧
        Abandoned w.heap h'' ctx bufs rest rest'') := by
  rcases @computeAllocGpuBuffer_outcomes κ drm ctx bufs rest wholeSize domain libc w alignment inv
    ok foreign with ⟨handles, k, k', -, -, -, refusal⟩ |
      ⟨bo, handles, h', rest', k₁, k₂, -, alloc, created, outcome⟩
  · have granted := creates (w.heap.contexts.cell ctx).fd
      (createArgs wholeSize domain (toU64 alignment) handles.length) k
    rw [refusal] at granted
    exact absurd rfl granted
  · refine ⟨bo, handles, h', rest', k₁, k₂, alloc, created, ?_⟩
    rcases outcome with mapped | ⟨h'', rest'', run, stops, abandoned, -⟩
    · exact .inl mapped
    · exact .inr ⟨h'', rest'', run, stops, abandoned⟩

end

end RadeonsiCompute
