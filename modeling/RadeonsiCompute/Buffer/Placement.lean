import RadeonsiCompute.Buffer.Legal
import RadeonsiCompute.Pool.FirstFit

/-!
# Where buffers go in a reachable pool

The address of every fragment of a new buffer in terms of the pool before the
call. From it: when a single-fragment buffer gets the lowest gap that is large
enough, when freeing a buffer makes room for one of the same size, and when a
buffer has the alignment it was requested with.
-/

namespace RadeonsiCompute

open Lib

variable {κ : Type}

section Parts

variable (drm : Drm κ) {h : Heap} {ctx : Addr} {bufs : Finset BufPtr} {rest : List Addr}
  {wholeSize domain alignment : Nat} {bo : BufPtr} {handles : List Nat}

/-- The requests to map fragments with the given handles side by side. -/
def mapRequestsAt (start : Nat) (handles : List Nat) : List GemVa :=
  handles.mapIdx fun j handle =>
    { handle, vmId := 0, operation := radeonVaMap,
      flags := radeonVmPageSnooped ||| radeonVmPageReadable ||| radeonVmPageWriteable,
      offset := (start + j * fragmentSize) % 2 ^ 64 }

/-- The pool gives the fragments of a new array the addresses from
`startAddress` on. -/
theorem PoolOwned.start (inv : PoolOwned h ctx bufs rest) (libc : Libc) {h₁ : Heap}
    (ok : RequestOk wholeSize) (new : NewBuffer ctx wholeSize domain alignment h h₁ bo handles)
    (count : handles.length = fragmentCount wholeSize) :
    ∃ h' l₁ news l₂, h.vmPool ctx :: rest = l₁ ++ l₂ ∧ l₁ ≠ [] ∧
      computePoolAlloc libc h₁ ctx bo = .ok h' ∧ IsPool h' (h.vmPool ctx) (l₁ ++ news ++ l₂) ∧
      Grew h₁ h' (h.vmPool ctx :: rest) news ∧
      h'.mapRequests bo 0 radeonVmPageSnooped 0 (fragmentCount wholeSize) =
        mapRequestsAt (startAddress (firstFragment ctx wholeSize domain alignment handles)
          (h.sentinel ctx :: h.entries rest)) handles ∧
      ∀ j < fragmentCount wholeSize, (h'.buffer (bo.add j)).va =
        (startAddress (firstFragment ctx wholeSize domain alignment handles)
          (h.sentinel ctx :: h.entries rest) + j * fragmentSize) % 2 ^ 64 := by
  have number := new.number count ok
  have entries : h₁.entries (h.vmPool ctx :: rest) = h.sentinel ctx :: h.entries rest :=
    Heap.entries_congr fun a _ => by rw [new.nodes]
  have live := new.liveBuffer count ok
  obtain ⟨h', l₁, news, l₂, split, nonempty, run, pool', grew, -, starts⟩ :=
    computePoolAlloc_start libc (by rw [new.contexts]; exact inv.ctxLive)
      (inv.poolOf new.nodes new.contexts) (fun _ => live.valid) live.positive (new.page count ok)
  rw [number, new.fragmentSizes count, entries, new.first count ok] at starts
  have va : ∀ j < fragmentCount wholeSize, (h'.buffer (bo.add j)).va =
      (startAddress (firstFragment ctx wholeSize domain alignment handles)
        (h.sentinel ctx :: h.entries rest) + j * fragmentSize) % 2 ^ 64 := by
    intro j hj
    obtain ⟨a, -, entry, same⟩ := starts j hj
    rw [same, entry, rangeSizes_take_sum hj]
  refine ⟨h', l₁, news, l₂, split, nonempty, run, ?_, grew, ?_, va⟩
  · rw [new.contexts] at pool'
    exact pool'
  · refine List.ext_getElem ?_ fun j left right => ?_
    · rw [Heap.mapRequests, mapRequestsAt, List.length_map, List.length_range',
        List.length_mapIdx, count]
    · have hj : j < fragmentCount wholeSize := by
        rwa [Heap.mapRequests, List.length_map, List.length_range'] at left
      have handle : (h'.buffer (bo.add j)).handle = handles[j] := by
        rw [grew.fields, new.fragment j (by omega)]
        simp only [fragment]
      simp only [Heap.mapRequests, mapRequestsAt, List.getElem_map, List.getElem_range',
        List.getElem_mapIdx, Nat.one_mul, Nat.zero_add, mapRequest, handle, va j hj]

/-- What `compute_alloc_gpu_buffer` does with a request of 1 to 2^32 - 1
fragments: it dereferences the `NULL` of a refused `GEM_CREATE`, or asks for
the mappings of `mapRequestsAt` and gives the buffer out or cleans up. -/
theorem computeAllocGpuBuffer_parts (libc : Libc) {w : World κ} {a : Int}
    (inv : PoolOwned w.heap ctx bufs rest) (ok : RequestOk wholeSize) :
    (∃ handles k k', computeAllocGpuBuffer drm libc w ctx wholeSize domain a = .error .nullDeref ∧
      handles.length < fragmentCount wholeSize ∧
      Creates drm (w.heap.contexts.cell ctx).fd w.kernel
        ((List.range' 0 handles.length).map (createArgs wholeSize domain (toU64 a))) handles k ∧
      drm.gemCreate (w.heap.contexts.cell ctx).fd
        (createArgs wholeSize domain (toU64 a) handles.length) k = (none, k')) ∨
    ∃ handles h₁ h' l₁ news l₂ k₁ k₂,
      NewBuffer ctx wholeSize domain (toU64 a) w.heap h₁
        ⟨libc.buffer.choose w.heap.buffers.live, 0⟩ handles ∧
      handles.length = fragmentCount wholeSize ∧
      Creates drm (w.heap.contexts.cell ctx).fd w.kernel
        (createRequests wholeSize domain (toU64 a)) handles k₁ ∧
      w.heap.vmPool ctx :: rest = l₁ ++ l₂ ∧ l₁ ≠ [] ∧
      IsPool h' (w.heap.vmPool ctx) (l₁ ++ news ++ l₂) ∧
      Grew h₁ h' (w.heap.vmPool ctx :: rest) news ∧
      h'.mapRequests ⟨libc.buffer.choose w.heap.buffers.live, 0⟩ 0 radeonVmPageSnooped 0
          (fragmentCount wholeSize) =
        mapRequestsAt (startAddress (firstFragment ctx wholeSize domain (toU64 a) handles)
          (w.heap.sentinel ctx :: w.heap.entries rest)) handles ∧
      (∀ j < fragmentCount wholeSize,
        (h'.buffer (BufPtr.add ⟨libc.buffer.choose w.heap.buffers.live, 0⟩ j)).va =
          (startAddress (firstFragment ctx wholeSize domain (toU64 a) handles)
            (w.heap.sentinel ctx :: w.heap.entries rest) + j * fragmentSize) % 2 ^ 64) ∧
      (computeAllocGpuBuffer drm libc w ctx wholeSize domain a =
          .ok (some ⟨libc.buffer.choose w.heap.buffers.live, 0⟩, { heap := h', kernel := k₂ }) ∧
        Maps drm (w.heap.contexts.cell ctx).fd k₁
          (mapRequestsAt (startAddress (firstFragment ctx wholeSize domain (toU64 a) handles)
            (w.heap.sentinel ctx :: w.heap.entries rest)) handles) k₂ ∨
      computeAllocGpuBuffer drm libc w ctx wholeSize domain a = (do
          let heap ← computePoolFree h' ctx ⟨libc.buffer.choose w.heap.buffers.live, 0⟩
          let heap ← heap.modifyBuffer ⟨libc.buffer.choose w.heap.buffers.live, 0⟩
            fun b => { b with va := 0 }
          let w ← computeFreeGpuBuffer drm { heap, kernel := k₂ }
            ⟨libc.buffer.choose w.heap.buffers.live, 0⟩
          .ok (none, w)) ∧
        MapStops drm (w.heap.contexts.cell ctx).fd k₁
          (mapRequestsAt (startAddress (firstFragment ctx wholeSize domain (toU64 a) handles)
            (w.heap.sentinel ctx :: w.heap.entries rest)) handles) k₂) := by
  obtain ⟨result, handles, w₁, run, new, outcome⟩ :=
    @computeAllocFragmentedBuffer_spec κ drm ctx wholeSize domain libc w a ok inv.ctxLive
  rcases outcome with ⟨rfl, count, created⟩ | ⟨rfl, count, k, created, refusal⟩
  · refine .inr ?_
    generalize (⟨libc.buffer.choose w.heap.buffers.live, 0⟩ : BufPtr) = bo at run new ⊢
    obtain ⟨h', l₁, news, l₂, split, nonempty, place, pool, grew, requests, va⟩ :=
      inv.start libc ok new count
    -- the pool changed only the addresses of the fragments
    have number : (h'.buffer bo).fragmentNumber = fragmentCount wholeSize := by
      rw [grew.fields]
      exact new.number count ok
    have live := (new.liveBuffer count ok).grew grew
    obtain ⟨r, k₂, map, mapped⟩ := computeVmMap_spec drm (w := { heap := h', kernel := w₁.kernel })
      0 radeonVmPageSnooped (by rw [grew.contexts, new.contexts]; exact inv.ctxLive)
      (by simpa using live.valid live.positive) (fun _ => live.valid)
    rw [grew.contexts, new.contexts, number, requests] at mapped
    refine ⟨handles, w₁.heap, h', l₁, news, l₂, w₁.kernel, k₂, new, count, created, split,
      nonempty, pool, grew, requests, va, ?_⟩
    rcases mapped with ⟨rfl, maps⟩ | ⟨rfl, stops⟩
    · refine .inl ⟨?_, maps⟩
      simp [computeAllocGpuBuffer, run, place, map]
    · refine .inr ⟨?_, stops⟩
      simp [computeAllocGpuBuffer, run, place, map]
  · refine .inl ⟨handles, k, w₁.kernel, ?_, count, created, refusal⟩
    simp [computeAllocGpuBuffer, run]

end Parts

/-! ## First fit -/

/-- A buffer of one fragment that a gap of whole pages can hold. -/
structure SingleFragment (h : Heap) (bo : BufPtr) : Prop where
  valid : h.ValidBuffer bo
  number : (h.buffer bo).fragmentNumber = 1
  aligned : (h.buffer bo).alignment ≤ 4096
  page : (h.buffer bo).vaSize % 4096 = 0

/-- The start of the lowest gap of at least `size` bytes, else the end of the pool. -/
def firstFitTarget (size : Nat) (pool : List PoolEntry) : Nat :=
  ((lowestGap size pool).map Prod.fst).getD (poolEnd pool)

/-- The buffer has one node, at address `va`, and knows that address. -/
structure PlacedAt (h : Heap) (ctx : Addr) (bo : BufPtr) (size va : Nat) : Prop where
  field : (h.buffer bo).va = va
  node : ∃ a ∈ h.poolNodes ctx, (h.nodes.cell a).toPoolEntry = { va, size, parentBo := bo, bo }

section FirstFit

variable {h₀ h : Heap} {ctx : Addr} {held : Finset BufPtr} {rest : List Addr} {bo : BufPtr}

/-- `compute_pool_alloc` of a single fragment in a heap with the pool of `h₀`. -/
theorem LegalInv.placeSingle (legal : LegalInv h₀ ctx held rest) (libc : Libc)
    (nodes : h.nodes = h₀.nodes) (contexts : h.contexts = h₀.contexts)
    (single : SingleFragment h bo) :
    ∃ h', computePoolAlloc libc h ctx bo = .ok h' ∧
      h'.entries (h'.poolNodes ctx) = place bo (h.buffer bo) [(h.buffer bo).vaSize]
        (h₀.sentinel ctx :: h₀.entries rest) ∧
      PlacedAt h' ctx bo (h.buffer bo).vaSize
        (firstFit (h.buffer bo) (h₀.sentinel ctx :: h₀.entries rest)) := by
  have pool := legal.owned.poolOf nodes contexts
  have entries : h.entries (h₀.vmPool ctx :: rest) = h₀.sentinel ctx :: h₀.entries rest :=
    Heap.entries_congr fun a _ => by rw [nodes]
  have sizes : h.fragmentSizes bo 0 (h.buffer bo).fragmentNumber = [(h.buffer bo).vaSize] := by
    simp [Heap.fragmentSizes, single.number]
  obtain ⟨h', l₁, news, l₂, -, -, run, pool', grew, placed, starts⟩ :=
    computePoolAlloc_start libc (by rw [contexts]; exact legal.owned.ctxLive) pool (by
      intro i hi
      rw [single.number] at hi
      obtain rfl : i = 0 := by omega
      exact single.valid) (by rw [single.number]; decide) single.page
  have nodesEq : h'.poolNodes ctx = l₁ ++ news ++ l₂ := by
    rw [← grew.contexts] at pool'
    exact pool'.poolNodes_eq
  obtain ⟨a, isNew, entry, va⟩ := starts 0 (by rw [single.number]; decide)
  rw [sizes, entries] at placed
  rw [entries, List.take_zero, List.sum_nil, Nat.add_zero, Nat.mod_eq_of_lt (startAddress_lt _ _),
    startAddress, if_pos single.number, BufPtr.add_zero] at entry
  rw [BufPtr.add_zero] at va
  refine ⟨h', run, by rw [nodesEq, placed], ?_, a, by simp [nodesEq, isNew], entry⟩
  rw [va, entry]

/-- First fit in a pool in order is missed exactly at an exact fit. -/
theorem LegalInv.firstFit_iff (legal : LegalInv h₀ ctx held rest) {b : GpuBuffer}
    (aligned : b.alignment ≤ 4096) :
    firstFit b (h₀.sentinel ctx :: h₀.entries rest) =
        firstFitTarget b.vaSize (h₀.sentinel ctx :: h₀.entries rest) ↔
      ∀ g, lowestGap b.vaSize (h₀.sentinel ctx :: h₀.entries rest) = some g → b.vaSize < g.2 :=
  firstFit_eq_iff legal.layout.ordered legal.layout.below
    (fun e member => legal.layout.positive e (List.mem_cons_of_mem _ member)) aligned

/-- The one range of a buffer of one fragment. -/
theorem LegalInv.own_range (legal : LegalInv h₀ ctx held rest) {b : BufPtr} (hb : b ∈ held)
    (one : (h₀.buffer b).fragmentNumber = 1) :
    (∃ e ∈ h₀.entries rest, e.parentBo = b) ∧
      ∀ e ∈ h₀.entries rest, e.parentBo = b → e.size = (h₀.buffer b).vaSize := by
  refine ⟨?_, ?_⟩
  · obtain ⟨e, member, same⟩ := legal.owned.listed b hb 0 (by rw [one]; decide)
    refine ⟨e, member, legal.owned.eq_of_block (legal.owned.owned e member).1 hb ?_⟩
    rw [← legal.owned.bo_block member, same, BufPtr.add_block]
  · rintro e member rfl
    obtain ⟨-, i, hi, same⟩ := legal.owned.owned e member
    rw [one] at hi
    obtain rfl : i = 0 := by omega
    rw [(legal.owned.agree e member).2, same, BufPtr.add_zero]

/-- Releasing a buffer keeps the node before the pool. -/
theorem LegalInv.release_ranges (legal : LegalInv h₀ ctx held rest) {b : BufPtr} (hb : b ∈ held) :
    release b (h₀.sentinel ctx :: h₀.entries rest) =
      h₀.sentinel ctx :: release b (h₀.entries rest) := by
  have foreign : (h₀.sentinel ctx).parentBo ≠ b := fun same => legal.owned.foreign (same ▸ hb)
  simp [release, foreign]

/-- Without the range of `b`, the pool ends where it ended, or before that
range when it was the last one. -/
theorem LegalInv.poolEnd_release (legal : LegalInv h₀ ctx held rest) {b : BufPtr}
    (hb : b ∈ held) {e : PoolEntry}
    (last : (h₀.sentinel ctx :: h₀.entries rest).getLast? = some e) :
    if e.parentBo = b then
      poolEnd (h₀.sentinel ctx :: release b (h₀.entries rest)) ≤ e.va
    else poolEnd (h₀.sentinel ctx :: release b (h₀.entries rest)) =
      poolEnd (h₀.sentinel ctx :: h₀.entries rest) := by
  have keep := legal.release_ranges hb
  obtain ⟨l, split⟩ := List.getLast?_eq_some_iff.mp last
  have ordered := legal.layout.ordered
  rw [split] at ordered
  rw [← keep, split]
  by_cases mine : e.parentBo = b
  · rw [if_pos mine]
    have dropped : release b (l ++ [e]) = release b l := by
      simp [release, List.filter_append, mine]
    rw [dropped]
    refine poolEnd_le fun x member => ?_
    exact (List.pairwise_append.mp ordered).2.2 x (List.mem_of_mem_filter member) e
      List.mem_cons_self
  · rw [if_neg mine]
    have kept : release b (l ++ [e]) = release b l ++ [e] := by
      simp [release, List.filter_append, mine]
    rw [kept, poolEnd_append, poolEnd_append]

/-- A range of the size of `b`, put back after `b` was released, leaves the end
of the pool where it was or lower exactly when `b` was last or a gap is larger. -/
theorem LegalInv.refit_iff (legal : LegalInv h₀ ctx held rest) {b : BufPtr} (hb : b ∈ held)
    (one : (h₀.buffer b).fragmentNumber = 1) {last : PoolEntry}
    (isLast : (h₀.sentinel ctx :: h₀.entries rest).getLast? = some last) :
    (if (lowestGap ((h₀.buffer b).vaSize + 1)
          (release b (h₀.sentinel ctx :: h₀.entries rest))).isSome then
        poolEnd (release b (h₀.sentinel ctx :: h₀.entries rest))
      else poolEnd (release b (h₀.sentinel ctx :: h₀.entries rest)) + (h₀.buffer b).vaSize) ≤
        poolEnd (h₀.sentinel ctx :: h₀.entries rest) ↔
      last.parentBo = b ∨ (lowestGap ((h₀.buffer b).vaSize + 1)
        (release b (h₀.sentinel ctx :: h₀.entries rest))).isSome := by
  obtain ⟨⟨own, ownIn, mine⟩, sizes⟩ := legal.own_range hb one
  have before := legal.poolEnd_release hb isLast
  rw [← legal.release_ranges hb] at before
  have atEnd : poolEnd (h₀.sentinel ctx :: h₀.entries rest) = last.va + last.size := by
    rw [poolEnd, isLast]
  have ownSize := sizes own ownIn mine
  have ownPos := legal.layout.positive own (List.mem_cons_of_mem _ ownIn)
  by_cases lastMine : last.parentBo = b
  · -- the end falls at least to where the range of `b` started
    rw [if_pos lastMine] at before
    have lastIn : last ∈ h₀.entries rest := by
      cases List.mem_cons.mp (List.mem_of_getLast? isLast) with
      | inl isSentinel =>
          rw [← lastMine, isSentinel] at hb
          exact absurd hb legal.owned.foreign
      | inr inRest => exact inRest
    have lastSize := sizes last lastIn lastMine
    refine iff_of_true ?_ (.inl lastMine)
    split <;> omega
  · -- the end stays, and only a larger gap takes the range
    rw [if_neg lastMine] at before
    split
    · next gap => exact iff_of_true (Nat.le_of_eq before) (.inr gap)
    · next noGap =>
        refine iff_of_false ?_ ?_
        · omega
        · rintro (isMine | gap)
          · exact lastMine isMine
          · exact noGap gap

end FirstFit

/-- **First fit, and when it fails.** A single fragment gets the lowest gap
that can hold it unless that gap is an exact fit. Freeing a buffer and
allocating one of the same size leaves the end of the pool where it was, or
lower, exactly when the freed range was the last one or some gap of the pool
without it is strictly larger. -/
theorem firstFit_complete_iff {drm : Drm κ} {view : Nat → κ → Kernel} (honest : drm.Honest view)
    (ctx : Addr) {s : Client κ} (reach : (legalSystem drm ctx).Reachable s) :
    (∀ libc h bo, h.nodes = s.world.heap.nodes → h.contexts = s.world.heap.contexts →
      SingleFragment h bo →
      ((∃ h', computePoolAlloc libc h ctx bo = .ok h' ∧ PlacedAt h' ctx bo (h.buffer bo).vaSize
          (firstFitTarget (h.buffer bo).vaSize (s.ranges ctx))) ↔
        ∀ g, lowestGap (h.buffer bo).vaSize (s.ranges ctx) = some g →
          (h.buffer bo).vaSize < g.2)) ∧
    ∀ b ∈ s.held, (s.world.heap.buffer b).fragmentNumber = 1 →
      ∃ w, computeFreeGpuBuffer drm s.world b = .ok w ∧
        ∀ libc h bo, h.nodes = w.heap.nodes → h.contexts = w.heap.contexts →
          SingleFragment h bo → (h.buffer bo).vaSize = (s.world.heap.buffer b).vaSize →
          ((∃ h', computePoolAlloc libc h ctx bo = .ok h' ∧
              poolEnd (h'.entries (h'.poolNodes ctx)) ≤ poolEnd (s.ranges ctx)) ↔
            (∃ e, (s.ranges ctx).getLast? = some e ∧ e.parentBo = b) ∨
              (lowestGap ((h.buffer bo).vaSize + 1) (release b (s.ranges ctx))).isSome) := by
  obtain ⟨rest, legal⟩ := (Client.inductive_ordered ctx honest).invariant reach
  have ranges : s.ranges ctx = s.world.heap.sentinel ctx :: s.world.heap.entries rest :=
    legal.owned.ranges_eq
  rw [ranges]
  refine ⟨?_, ?_⟩
  · intro libc h bo nodes contexts single
    obtain ⟨h', run, -, placed⟩ := legal.placeSingle libc nodes contexts single
    rw [← legal.firstFit_iff single.aligned]
    constructor
    · rintro ⟨h'', run', placed'⟩
      obtain rfl : h' = h'' := Except.ok.inj (run.symm.trans run')
      exact placed.field.symm.trans placed'.field
    · intro same
      rw [← same]
      exact ⟨h', run, placed⟩
  · -- freeing `b` releases its range; the next buffer of its size is placed there or later
    intro b hb one
    obtain ⟨h₁, rest₁, free, released⟩ :=
      computeFreeGpuBuffer_spec drm legal.owned hb (legal.inv.va_ne_zero hb)
    refine ⟨_, free, ?_⟩
    intro libc h bo nodes contexts single size
    have legal₁ := legal.free released
    obtain ⟨h', run, pool', -⟩ := legal₁.placeSingle libc nodes contexts single
    have after := @place_end (h.buffer bo) _ _ bo legal₁.layout.ordered legal₁.layout.below
      single.aligned single.number
    rw [← pool', released.sentinel, released.entries, ← legal.release_ranges hb] at after
    obtain ⟨last, isLast⟩ := Option.isSome_iff_exists.mp (List.getLast?_isSome.mpr
      (List.cons_ne_nil (s.world.heap.sentinel ctx) (s.world.heap.entries rest)))
    have bound := legal.refit_iff hb one isLast
    rw [← size, ← after] at bound
    constructor
    · rintro ⟨h'', run', le⟩
      obtain rfl : h' = h'' := Except.ok.inj (run.symm.trans run')
      rcases bound.mp le with isMine | gap
      · exact .inl ⟨last, isLast, isMine⟩
      · exact .inr gap
    · rintro (⟨e, found, isMine⟩ | gap)
      · obtain rfl : last = e := Option.some.inj (isLast.symm.trans found)
        exact ⟨h', run, bound.mpr (.inl isMine)⟩
      · exact ⟨h', run, bound.mpr (.inr gap)⟩

/-- The heap with one array, of one fragment of a page. -/
def Heap.withSingle (h : Heap) : Heap :=
  { h with
    buffers :=
      { cell := fun _ =>
          { count := 1
            elem := fun _ => { GpuBuffer.zero with alignment := 4096, vaSize := 4096, fragmentNumber := 1 } }
        live := {0} } }

theorem SingleFragment.withSingle (h : Heap) : SingleFragment h.withSingle ⟨0, 0⟩ where
  valid := ⟨Finset.mem_singleton_self 0, Nat.zero_lt_one⟩
  number := rfl
  aligned := Nat.le_refl 4096
  page := Nat.mod_self 4096

/-- A gap of two pages is used for one page. -/
theorem firstFit_complete_largeGap :
    ∃ s, Client.run (limitedDrm .above 10) (fun s c _ => s.Legal 0 c) .empty
        [.alloc .above 5000 2 4096, .alloc .above 4096 2 4096, .free ⟨1, 0⟩] = some s ∧
      ∃ h', computePoolAlloc .above s.world.heap.withSingle 0 ⟨0, 0⟩ = .ok h' ∧
        PlacedAt h' 0 ⟨0, 0⟩ 4096 (firstFitTarget 4096 (s.ranges 0)) := by
  obtain ⟨s, run, gap⟩ := Option.map_eq_some_iff.mp (show
    (Client.run (limitedDrm .above 10) (fun s c _ => s.Legal 0 c) .empty
      [.alloc .above 5000 2 4096, .alloc .above 4096 2 4096, .free ⟨1, 0⟩]).map
        (fun s => lowestGap 4096 (s.ranges 0)) = some (some (4096, 8192)) by decide +kernel)
  have reach := Client.reachable_of_run (limitedDrm .above 10) (fun s c _ => s.Legal 0 c)
    (fun _ => True) trivial run
  obtain ⟨placed, -⟩ := firstFit_complete_iff (limitedDrm_honest .above 10) 0 reach
  refine ⟨s, run, (placed .above s.world.heap.withSingle ⟨0, 0⟩ rfl rfl (.withSingle _)).mpr
    fun g found => ?_⟩
  obtain rfl : (4096, 8192) = g := Option.some.inj (gap.symm.trans found)
  show 4096 < 8192
  decide

/-- A gap of one page is not: the buffer goes behind the last range, and the
end of the pool rises from 12288 to 16384. -/
theorem not_firstFit_exactFit :
    ∃ s, (legalSystem (limitedDrm .above 10) 0).Reachable s ∧
      lowestGap 4096 (s.ranges 0) = some (4096, 4096) ∧ poolEnd (s.ranges 0) = 12288 ∧
      SingleFragment s.world.heap.withSingle ⟨0, 0⟩ ∧
      ∃ h', computePoolAlloc .above s.world.heap.withSingle 0 ⟨0, 0⟩ = .ok h' ∧
        (h'.buffer ⟨0, 0⟩).va = 12288 ∧ poolEnd (h'.entries (h'.poolNodes 0)) = 16384 := by
  obtain ⟨s, run, facts⟩ := Option.map_eq_some_iff.mp (show
    (Client.run (limitedDrm .above 10) (fun s c _ => s.Legal 0 c) .empty
      [.alloc .above 4096 2 4096, .alloc .above 4096 2 4096, .free ⟨1, 0⟩]).map (fun s =>
        ((lowestGap 4096 (s.ranges 0), poolEnd (s.ranges 0)),
          (computePoolAlloc .above s.world.heap.withSingle 0 ⟨0, 0⟩).toOption.map fun h' =>
            ((h'.buffer ⟨0, 0⟩).va, poolEnd (h'.entries (h'.poolNodes 0))))) =
      some ((some (4096, 4096), 12288), some (12288, 16384)) by decide +kernel)
  obtain ⟨before, after⟩ := Prod.mk.inj facts
  obtain ⟨gap, end_⟩ := Prod.mk.inj before
  obtain ⟨h', alloc, placed⟩ := Option.map_eq_some_iff.mp after
  obtain ⟨va, raised⟩ := Prod.mk.inj placed
  exact ⟨s, Client.reachable_of_run (limitedDrm .above 10) (fun s c _ => s.Legal 0 c)
    (fun _ => True) trivial run, gap, end_, .withSingle _, h', toOption_eq_some.mp alloc, va, raised⟩

/-! ## Alignment -/

/-- Where the pool ends in its page. -/
theorem LegalInv.poolEnd_residue {h : Heap} {ctx : Addr} {held : Finset BufPtr}
    {rest : List Addr} (legal : LegalInv h ctx held rest) :
    poolEnd (h.sentinel ctx :: h.entries rest) % 4096 = (h.sentinel ctx).size % 4096 := by
  cases shape : h.entries rest using List.reverseRecOn with
  | nil =>
      have single : poolEnd [h.sentinel ctx] = (h.sentinel ctx).va + (h.sentinel ctx).size := rfl
      rw [single, legal.layout.base, Nat.zero_add]
  | append_singleton l e =>
      obtain ⟨va, size⟩ := legal.residue e (by simp [shape])
      rw [← List.cons_append, poolEnd_append]
      omega

/-- A gap keeps the offset in the page. -/
theorem LegalInv.firstFit_residue {h : Heap} {ctx : Addr} {held : Finset BufPtr}
    {rest : List Addr} (legal : LegalInv h ctx held rest) (b : GpuBuffer) :
    firstFit b (h.sentinel ctx :: h.entries rest) % 4096 = (h.sentinel ctx).size % 4096 := by
  have step : ∀ (l : List PoolEntry) (n : PoolEntry),
      (∀ e ∈ n :: l, (e.va + e.size) % 4096 = (h.sentinel ctx).size % 4096) →
      firstFit b (n :: l) % 4096 = (h.sentinel ctx).size % 4096 := by
    intro l
    induction l with
    | nil =>
        intro n residue
        have here := residue n List.mem_cons_self
        show add64 n.va n.size % 4096 = _
        unfold add64
        omega
    | cons next l ih =>
        intro n residue
        have here := residue n List.mem_cons_self
        rw [firstFit]
        split
        · unfold add64
          omega
        · exact ih next fun e member => residue e (List.mem_cons_of_mem _ member)
  refine step _ _ fun e member => ?_
  rcases List.mem_cons.mp member with rfl | inRest
  · rw [legal.layout.base, Nat.zero_add]
  · obtain ⟨va, size⟩ := legal.residue e inRest
    omega

/-- **Alignment is honoured exactly when the pool's end happens to be aligned.**
Whatever was allocated and freed before, a request for 2^k bytes of alignment,
a page or more, is aligned if and only if the address behind the last range is. -/
theorem alloc_aligned_iff {drm : Drm κ} {view : Nat → κ → Kernel} (honest : drm.Honest view)
    (ctx : Addr) {s : Client κ} (reach : (legalSystem drm ctx).Reachable s) (libc : Libc)
    {size : Nat} (domain : Nat) {alignment k : Nat} (word : size < 2 ^ 64)
    (power : alignment = 2 ^ k) (page : 4096 ≤ alignment) (int : alignment < 2 ^ 31)
    {bo : BufPtr} {w' : World κ}
    (returned : computeAllocGpuBuffer drm libc s.world ctx size domain alignment =
      .ok (some bo, w')) :
    alignment ∣ (w'.heap.buffer bo).va ↔ alignment ∣ poolEnd (s.ranges ctx) := by
  obtain ⟨rest, legal⟩ := (Client.inductive_ordered ctx honest).invariant reach
  have ranges : s.ranges ctx = s.world.heap.sentinel ctx :: s.world.heap.entries rest :=
    legal.owned.ranges_eq
  have ok := requestOk_of_alloc drm libc word returned
  have a : toU64 alignment = alignment := toU64_natCast (by omega)
  rcases @computeAllocGpuBuffer_parts κ drm ctx s.held rest size domain libc s.world alignment
    legal.owned ok with ⟨-, -, -, refused, -⟩ |
      ⟨handles, h₁, h', l₁, news, l₂, k₁, k₂, new, count, -, -, -, -, -, -, va, outcome⟩
  · exact absurd (returned.symm.trans refused) (by simp)
  rcases outcome with ⟨run, -⟩ | ⟨run, -⟩
  · obtain ⟨bo_eq, rfl⟩ := Prod.mk.inj (Except.ok.inj (returned.symm.trans run))
    obtain rfl := Option.some.inj bo_eq
    have start := va 0 (fragmentCount_pos ok.1)
    rw [BufPtr.add_zero, Nat.zero_mul, Nat.add_zero, Nat.mod_eq_of_lt (startAddress_lt _ _), a]
      at start
    rw [start, ranges]
    have tail := tailAddress_eq legal.layout.below
    unfold startAddress
    split
    · by_cases large : 4096 < alignment
      · -- no gap is used
        rw [firstFit_of_aligned _ (by simpa only [fragment] using large), tail]
      · obtain rfl : alignment = 4096 := by omega
        have first := legal.firstFit_residue (firstFragment ctx size domain 4096 handles)
        have last := legal.poolEnd_residue
        omega
    · rw [tail]
  · -- the cleanup returns `NULL`
    rw [run] at returned
    obtain ⟨_, -, returned⟩ := bind_eq_ok.mp returned
    obtain ⟨_, -, returned⟩ := bind_eq_ok.mp returned
    obtain ⟨_, -, returned⟩ := bind_eq_ok.mp returned
    exact absurd returned (by simp)

/-- In a pool that ends at 8192, a request for 8192 is aligned. -/
theorem alloc_aligned_secondPage :
    ∃ s bo w', Client.run (limitedDrm .above 10) (fun s c _ => s.Legal 0 c) .empty
        [.alloc .above 4096 2 4096] = some s ∧
      computeAllocGpuBuffer (limitedDrm .above 10) .above s.world 0 1 2 8192 = .ok (some bo, w') ∧
      8192 ∣ (w'.heap.buffer bo).va := by
  obtain ⟨s, run, facts⟩ := Option.map_eq_some_iff.mp (show
    (Client.run (limitedDrm .above 10) (fun s c _ => s.Legal 0 c) .empty
      [.alloc .above 4096 2 4096]).map (fun s => (poolEnd (s.ranges 0),
        (computeAllocGpuBuffer (limitedDrm .above 10) .above s.world 0 1 2 8192).toOption.map
          Prod.fst)) = some (8192, some (some ⟨2, 0⟩)) by decide +kernel)
  obtain ⟨end_, found⟩ := Prod.mk.inj facts
  obtain ⟨⟨bo, w'⟩, returned, same⟩ := Option.map_eq_some_iff.mp found
  obtain rfl : bo = some ⟨2, 0⟩ := same
  have reach := Client.reachable_of_run (limitedDrm .above 10) (fun s c _ => s.Legal 0 c)
    (fun _ => True) trivial run
  have call := toOption_eq_some.mp returned
  refine ⟨s, ⟨2, 0⟩, w', run, call, ?_⟩
  refine (@alloc_aligned_iff _ _ _ (limitedDrm_honest .above 10) 0 s reach .above 1 2 8192 13
    (by decide) (by decide) (by decide) (by decide) _ _ call).mpr ?_
  rw [end_]

/-- In a new pool, which ends at 4096, it is not. -/
theorem not_alloc_aligned_newPool :
    ∃ s bo w', (legalSystem (limitedDrm .above 10) 0).Reachable s ∧
      computeAllocGpuBuffer (limitedDrm .above 10) .above s.world 0 1 2 8192 = .ok (some bo, w') ∧
      ¬ 8192 ∣ (w'.heap.buffer bo).va := by
  obtain ⟨s, run, facts⟩ := Option.map_eq_some_iff.mp (show
    (Client.run (limitedDrm .above 10) (fun s c _ => s.Legal 0 c) .empty []).map (fun s =>
        (computeAllocGpuBuffer (limitedDrm .above 10) .above s.world 0 1 2 8192).toOption.map
          fun r => (r.1, (r.2.heap.buffer ⟨1, 0⟩).va)) = some (some (some ⟨1, 0⟩, 4096)) by
    decide +kernel)
  obtain ⟨⟨bo, w'⟩, returned, same⟩ := Option.map_eq_some_iff.mp facts
  obtain ⟨rfl, va⟩ := Prod.mk.inj same
  refine ⟨s, ⟨1, 0⟩, w', Client.reachable_of_run (limitedDrm .above 10) (fun s c _ => s.Legal 0 c)
    (fun _ => True) trivial run, toOption_eq_some.mp returned, ?_⟩
  rw [va]
  decide

end RadeonsiCompute
