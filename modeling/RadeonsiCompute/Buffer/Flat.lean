import RadeonsiCompute.Buffer.Runs

/-!
# One buffer, two views

The copy functions see a buffer as an array of fragments and find a byte by
dividing its offset by the fragment size; packets, shaders and descriptors see
the one address `bo->va` and add the offset to it. `FlatBuffer` says when the
two agree, and every allocation that fits below 2^64 makes them agree, in a gap
as well as at the end of the pool.
-/

namespace RadeonsiCompute

open Lib

/-- The buffer of `size` bytes is split as the copy functions expect, and its
fragments are mapped one after the other. -/
structure FlatBuffer (h : Heap) (bo : BufPtr) (size : Nat) : Prop where
  number : (h.buffer bo).fragmentNumber = (size + fragmentSize - 1) / fragmentSize
  noNumber : ∀ j, 0 < j → j < (h.buffer bo).fragmentNumber →
    (h.buffer (bo.add j)).fragmentNumber = 0
  bytes : ∀ j < (h.buffer bo).fragmentNumber,
    1 ≤ (h.buffer (bo.add j)).size ∧ (h.buffer (bo.add j)).size ≤ fragmentSize
  full : ∀ j, j + 1 < (h.buffer bo).fragmentNumber → (h.buffer (bo.add j)).size = fragmentSize
  total : ((List.range (h.buffer bo).fragmentNumber).map fun j =>
    (h.buffer (bo.add j)).size).sum = size
  rounded : ∀ j < (h.buffer bo).fragmentNumber, (h.buffer (bo.add j)).vaSize =
    ((h.buffer (bo.add j)).size + 4095) / 4096 * 4096
  flat : ∀ o < size, (h.buffer bo).va + o =
      (h.buffer (bo.add (o / fragmentSize))).va + o % fragmentSize
  inside : ∀ o < size, (h.buffer bo).va + o ∈
    Set.Ico (h.buffer (bo.add (o / fragmentSize))).va
      ((h.buffer (bo.add (o / fragmentSize))).va + (h.buffer (bo.add (o / fragmentSize))).vaSize)

/-- The fragments before index `k` hold the first `k` times 64 MiB. -/
theorem sum_fragmentBytes (wholeSize k : Nat) :
    ((List.range k).map (fragmentBytes wholeSize)).sum = min wholeSize (k * fragmentSize) := by
  induction k with
  | zero => simp
  | succ k ih =>
      rw [List.range_succ, List.map_append, List.sum_append, ih, List.map_singleton,
        List.sum_singleton]
      exact add_fragmentBytes

section

variable {h h' : Heap} {ctx : Addr} {bufs : Finset BufPtr} {rest rest' : List Addr}
  {wholeSize domain alignment : Nat} {bo : BufPtr} {handles : List Nat}

/-- An allocation that fits behind the pool leaves every range below 2^64. -/
theorem Allocated.below
    (alloc : Allocated h h' ctx bufs rest wholeSize domain alignment bo handles rest')
    (layout : PoolLayout (h.sentinel ctx) (h.entries rest)) (positive : 0 < wholeSize)
    (room : poolEnd (h.sentinel ctx :: h.entries rest) + (wholeSize + 4095) / 4096 * 4096 <
      2 ^ 64) : Below (h'.sentinel ctx :: h'.entries rest') := by
  rw [alloc.placed]
  refine place_below layout.ordered layout.below ?_
  rw [rangeSizes_sum positive]
  exact room

/-- The fragments of an allocation are mapped one after the other. -/
theorem Allocated.fragment_va (inv : PoolOwned h ctx bufs rest)
    (alloc : Allocated h h' ctx bufs rest wholeSize domain alignment bo handles rest')
    (ok : RequestOk wholeSize)
    (room : poolEnd (h.sentinel ctx :: h.entries rest) + (wholeSize + 4095) / 4096 * 4096 <
      2 ^ 64) {j : Nat} (hj : j < fragmentCount wholeSize) :
    (h'.buffer (bo.add j)).va = (h'.buffer bo).va + j * fragmentSize := by
  have number := alloc.number ok
  have member : bo ∈ insert bo bufs := Finset.mem_insert_self bo bufs
  obtain ⟨base, starts⟩ := @place_flat bo (firstFragment ctx wholeSize domain alignment handles)
    (rangeSizes wholeSize) (h.sentinel ctx :: h.entries rest) (List.cons_ne_nil _ _)
    (alloc.foreign inv) rangeSizes_single (by rw [rangeSizes_sum ok.1]; exact room)
  rw [← alloc.placed] at starts
  have start : ∀ i < fragmentCount wholeSize,
      (h'.buffer (bo.add i)).va = base + i * fragmentSize := by
    intro i hi
    obtain ⟨e, listed, same⟩ := alloc.owned.listed bo member i (by rw [number]; exact hi)
    have mine : e.parentBo = bo := by
      refine alloc.owned.eq_of_block (alloc.owned.owned e listed).1 member ?_
      rw [← alloc.owned.bo_block listed, same, BufPtr.add_block]
    obtain ⟨i', hi', same', va⟩ := starts e (List.mem_cons_of_mem _ listed) mine
    obtain rfl : i = i' := by
      rw [same] at same'
      exact BufPtr.add_inj.mp same'
    rw [rangeSizes_take_sum hi] at va
    rw [← same, ← (alloc.owned.agree e listed).1, va]
  have first := start 0 (by omega)
  rw [BufPtr.add_zero, Nat.zero_mul, Nat.add_zero] at first
  rw [start j hj, first]

theorem Allocated.flatBuffer (inv : PoolOwned h ctx bufs rest)
    (alloc : Allocated h h' ctx bufs rest wholeSize domain alignment bo handles rest')
    (ok : RequestOk wholeSize)
    (room : poolEnd (h.sentinel ctx :: h.entries rest) + (wholeSize + 4095) / 4096 * 4096 <
      2 ^ 64) : FlatBuffer h' bo wholeSize := by
  have number := alloc.number ok
  have size : ∀ j < fragmentCount wholeSize,
      (h'.buffer (bo.add j)).size = fragmentBytes wholeSize j := by
    intro j hj
    rw [alloc.fragments j (by rw [alloc.count]; exact hj)]
    simp only [fragment]
  have vaSize : ∀ j < fragmentCount wholeSize,
      (h'.buffer (bo.add j)).vaSize = (fragmentBytes wholeSize j + 4095) / 4096 * 4096 := by
    intro j hj
    rw [alloc.fragments j (by rw [alloc.count]; exact hj)]
    simp only [fragment, vaSizeOf_eq fragmentBytes_le]
  -- fragment `j` starts `j` fragment sizes after the first, so addresses run on
  have flat : ∀ o < wholeSize, (h'.buffer bo).va + o =
      (h'.buffer (bo.add (o / fragmentSize))).va + o % fragmentSize := by
    intro o ho
    have split := Nat.div_add_mod o fragmentSize
    rw [Nat.mul_comm] at split
    rw [alloc.fragment_va inv ok room (mod_lt_fragmentBytes ho).1]
    omega
  constructor
  · exact number
  · intro j positive hj
    rw [number] at hj
    rw [alloc.fragments j (by rw [alloc.count]; exact hj)]
    simp only [fragment, if_neg (show ¬ j = 0 by omega)]
  · intro j hj
    rw [number] at hj
    rw [size j hj]
    exact ⟨fragmentBytes_pos hj, fragmentBytes_le⟩
  · intro j hj
    rw [number] at hj
    rw [size j (by omega)]
    exact fragmentBytes_of_lt hj
  · have same : (List.range (fragmentCount wholeSize)).map (fun j => (h'.buffer (bo.add j)).size) =
        (List.range (fragmentCount wholeSize)).map (fragmentBytes wholeSize) :=
      List.map_congr_left fun j member => size j (List.mem_range.mp member)
    have stop : ¬ fragmentCount wholeSize < fragmentCount wholeSize := by omega
    have finish := mt lt_fragmentCount.mpr stop
    rw [number, same, sum_fragmentBytes]
    exact Nat.min_eq_left (by omega)
  · intro j hj
    rw [number] at hj
    rw [vaSize j hj, size j hj]
  · exact flat
  · intro o ho
    obtain ⟨inRange, small⟩ := mod_lt_fragmentBytes ho
    rw [flat o ho, vaSize _ inRange]
    refine ⟨Nat.le_add_right _ _, ?_⟩
    omega

end

/-- **The two views of a buffer coincide.** In every state a run reaches, an
allocation that fits behind the pool returns, returns a buffer if the driver
maps every fragment, and what it returns is flat. -/
theorem poolSystem_flatBuffer {κ : Type} (drm : Drm κ) (ctx : Addr)
    (creates : ∀ fd args k, (drm.gemCreate fd args k).1 ≠ none) {s : Client κ}
    (reach : (poolSystem drm ctx).Reachable s) (libc : Libc) (size domain : Nat) (alignment : Int)
    (allowed : s.Allowed ctx (.alloc libc size domain alignment))
    (room : poolEnd (s.ranges ctx) + (size + 4095) / 4096 * 4096 < 2 ^ 64) :
    ∃ result w', computeAllocGpuBuffer drm libc s.world ctx size domain alignment =
        .ok (result, w') ∧
      ((∀ fd va k, ¬ MapRefused (drm.gemVa fd va k).1) → result ≠ none) ∧
      ∀ bo, result = some bo → FlatBuffer w'.heap bo size := by
  obtain ⟨rest, owned, layout⟩ := (Client.inductive_inv drm ctx creates).invariant reach
  obtain ⟨positive, small, foreign⟩ := allowed
  have ok := requestOk_of_le positive small
  obtain ⟨bo, handles, h', rest', k₁, k₂, alloc, -, outcome⟩ :=
    @computeAllocGpuBuffer_spec κ drm ctx s.held rest size domain libc s.world alignment owned
      ok foreign creates
  rw [Client.ranges, owned.ranges_eq] at room
  rcases outcome with ⟨run, -⟩ | ⟨h'', rest'', run, stops, -⟩
  · refine ⟨some bo, _, run, fun _ => Option.some_ne_none bo, fun bo' same => ?_⟩
    obtain rfl : bo = bo' := Option.some.inj same
    exact alloc.flatBuffer owned ok room
  · refine ⟨none, _, run, fun granted => ?_, fun bo' same => absurd same (by simp)⟩
    obtain ⟨-, va, -, k, answer, -, -, refusal, refused⟩ := stops
    have contradiction := granted (s.world.heap.contexts.cell ctx).fd va k
    rw [refusal] at contradiction
    exact absurd refused contradiction

/-- A buffer of two fragments and one byte, allocated after other calls. -/
theorem poolSystem_flatBuffer_someCalls :
    ∃ s bo w', Client.run grantingDrm (fun s c s' => s.Allowed 0 c ∧ Below (s'.ranges 0)) 0
        someCalls = some s ∧
      computeAllocGpuBuffer grantingDrm .above s.world 0 134217729 2 4096 = .ok (some bo, w') ∧
      FlatBuffer w'.heap bo 134217729 := by
  obtain ⟨s, run, facts⟩ := Option.map_eq_some_iff.mp (show
    (Client.run grantingDrm (fun s c s' => s.Allowed 0 c ∧ Below (s'.ranges 0)) 0
      someCalls).map (fun s => decide (s.Allowed 0 (.alloc .above 134217729 2 4096) ∧
        poolEnd (s.ranges 0) + (134217729 + 4095) / 4096 * 4096 < 2 ^ 64)) = some true by
    decide +kernel)
  obtain ⟨allowed, room⟩ := of_decide_eq_true facts
  obtain ⟨result, w', call, granted, flat⟩ := poolSystem_flatBuffer grantingDrm 0
    (fun _ _ _ => Option.some_ne_none _) (Client.reachable_of_run grantingDrm _ _ trivial run)
    .above 134217729 2 4096 allowed room
  have found : result ≠ none := by
    refine granted fun fd va k refused => ?_
    have accepted : ¬ MapRefused (0, radeonVaResultOk) := by decide
    exact accepted refused
  obtain ⟨bo, rfl⟩ := Option.ne_none_iff_exists'.mp found
  exact ⟨s, bo, w', run, call, flat bo rfl⟩

end RadeonsiCompute
