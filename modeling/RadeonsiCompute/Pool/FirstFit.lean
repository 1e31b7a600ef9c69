import RadeonsiCompute.Pool.Grow

/-!
# Where an allocation goes

`firstFit` is the address the gap test of the code settles on, `startAddress`
the address of the first fragment of any request. `lowestGap` is the gap a
first-fit allocator is expected to use. Since the code asks for a gap strictly
larger than the request, the two differ exactly when the lowest gap that is
large enough is an exact fit.
-/

namespace RadeonsiCompute

open Lib

/-- Behind the first range with a gap that passes `gapFits`, or behind the last. -/
def firstFit (b : GpuBuffer) : List PoolEntry → Nat
  | [] => 0
  | [n] => add64 n.va n.size
  | n :: next :: rest =>
      if gapFits b n next = true then add64 n.va n.size else firstFit b (next :: rest)

/-- The address after the last range, as the code computes it. -/
def tailAddress (pool : List PoolEntry) : Nat :=
  match pool.getLast? with
  | none => 0
  | some n => add64 n.va n.size

/-- Where the first fragment of a request goes. -/
def startAddress (b : GpuBuffer) (pool : List PoolEntry) : Nat :=
  if b.fragmentNumber = 1 then firstFit b pool else tailAddress pool

/-- Start and length of the lowest gap of at least `size` bytes. -/
def lowestGap (size : Nat) : List PoolEntry → Option (Nat × Nat)
  | n :: next :: rest =>
      if size ≤ next.va - (n.va + n.size) then some (n.va + n.size, next.va - (n.va + n.size))
      else lowestGap size (next :: rest)
  | _ => none

/-! ## The new ranges -/

@[simp] theorem tailAddress_append (l : List PoolEntry) (n : PoolEntry) :
    tailAddress (l ++ [n]) = add64 n.va n.size := by
  simp [tailAddress]

theorem tailAddress_lt (pool : List PoolEntry) : tailAddress pool < 2 ^ 64 := by
  unfold tailAddress
  split
  · decide
  · exact add64_lt _ _

/-- While the pool stays below 2^64, the tail is its end. -/
theorem tailAddress_eq {pool : List PoolEntry} (below : Below pool) :
    tailAddress pool = poolEnd pool := by
  cases pool using List.reverseRecOn with
  | nil => rfl
  | append_singleton l n =>
      rw [tailAddress_append, poolEnd_append, add64_of_lt (below n (by simp))]

theorem firstFit_lt (b : GpuBuffer) (pool : List PoolEntry) : firstFit b pool < 2 ^ 64 := by
  induction pool with
  | nil => exact Nat.two_pow_pos 64
  | cons n rest ih =>
      cases rest with
      | nil => exact add64_lt _ _
      | cons next rest =>
          rw [firstFit]
          split
          · exact add64_lt _ _
          · exact ih

theorem startAddress_lt (b : GpuBuffer) (pool : List PoolEntry) :
    startAddress b pool < 2 ^ 64 := by
  unfold startAddress
  split
  · exact firstFit_lt b pool
  · exact tailAddress_lt pool

/-- A buffer that asks for more than a page of alignment uses no gap. -/
theorem firstFit_of_aligned {b : GpuBuffer} (pool : List PoolEntry) (large : 4096 < b.alignment) :
    firstFit b pool = tailAddress pool := by
  have miss : ∀ n next, ¬ gapFits b n next = true := by
    intro n next fit
    simp only [gapFits, Bool.and_eq_true, decide_eq_true_eq] at fit
    omega
  induction pool with
  | nil => rfl
  | cons n rest ih =>
      cases rest with
      | nil => rfl
      | cons next rest =>
          rw [firstFit, if_neg (miss n next), ih]
          simp [tailAddress, List.getLast?_cons_cons]

theorem firstFit_append_singleton {b : GpuBuffer} {l : List PoolEntry} {n : PoolEntry}
    (miss : (l ++ [n]).IsChain fun x y => gapFits b x y = false) :
    firstFit b (l ++ [n]) = add64 n.va n.size := by
  induction l with
  | nil => rfl
  | cons m l ih =>
      cases l with
      | nil =>
          have here := (List.isChain_cons_cons.mp miss).1
          simp [firstFit, here]
      | cons m' l =>
          obtain ⟨here, later⟩ := List.isChain_cons_cons.mp miss
          rw [List.cons_append, List.cons_append, firstFit, if_neg (by simp [here])]
          exact ih later

theorem firstFit_gap {b : GpuBuffer} {l₁ l₂ : List PoolEntry} {n next : PoolEntry}
    (miss : (l₁ ++ [n]).IsChain fun x y => gapFits b x y = false)
    (fits : gapFits b n next = true) :
    firstFit b (l₁ ++ n :: next :: l₂) = add64 n.va n.size := by
  induction l₁ with
  | nil => simp [firstFit, fits]
  | cons m l₁ ih =>
      cases l₁ with
      | nil =>
          have here := (List.isChain_cons_cons.mp miss).1
          simp [firstFit, here, fits]
      | cons m' l₁ =>
          obtain ⟨here, later⟩ := List.isChain_cons_cons.mp miss
          rw [List.cons_append, List.cons_append, firstFit, if_neg (by simp [here])]
          exact ih later

/-- Besides the old ranges the pool has one for each fragment, contiguous from
`startAddress` on. -/
theorem place_news {bo : BufPtr} {b : GpuBuffer} {sizes : List Nat} {pool : List PoolEntry}
    (nonempty : pool ≠ []) (single : b.fragmentNumber = 1 → sizes = [b.vaSize]) :
    ∃ news, (place bo b sizes pool).Perm (pool ++ news) ∧ news.length = sizes.length ∧
      ∀ j (_ : j < sizes.length), news[j]? =
        some { va := (startAddress b pool + (sizes.take j).sum) % 2 ^ 64, size := sizes[j],
               parentBo := bo, bo := bo.add j } := by
  rcases place_cases bo b sizes nonempty with
    ⟨l₁, n, m, l₂, split, one, fits, miss, result⟩ | ⟨l, n, split, miss, result⟩
  · refine ⟨[{ va := add64 n.va n.size, size := b.vaSize, parentBo := bo, bo }], ?_, ?_, ?_⟩
    · rw [result, split]
      exact perm_between _ _ _ _ _
    · rw [single one]
      rfl
    · intro j hj
      simp only [single one, List.length_singleton, Nat.lt_one_iff] at hj
      subst hj
      have start : startAddress b pool = add64 n.va n.size := by
        rw [startAddress, if_pos one, split, firstFit_gap miss fits]
      simp only [single one, start, List.take_zero, List.sum_nil, Nat.add_zero,
        Nat.mod_eq_of_lt (add64_lt _ _), BufPtr.add_zero, List.getElem?_cons_zero,
        List.getElem_cons_zero]
  · refine ⟨appendEntries bo 0 sizes n, by rw [result, split]; simp,
      appendEntries_length 0 sizes n, ?_⟩
    intro j hj
    have start : startAddress b pool = add64 n.va n.size := by
      unfold startAddress
      split
      · rename_i one
        rw [split, firstFit_append_singleton (split ▸ miss one)]
      · rw [split, tailAddress_append]
    rw [appendEntries_va 0 hj, start, Nat.zero_add]
    congr 2
    unfold add64
    omega

/-- Where `compute_pool_alloc` puts the fragments of a buffer. -/
theorem computePoolAlloc_start (libc : Libc) {h : Heap} {ctx : Addr} {bo : BufPtr}
    {as : List Addr} (ctxLive : ctx ∈ h.contexts.live)
    (pool : IsPool h (h.contexts.cell ctx).vmPool as)
    (valid : ∀ i < (h.buffer bo).fragmentNumber, h.ValidBuffer (bo.add i))
    (positive : 0 < (h.buffer bo).fragmentNumber) (page : (h.buffer bo).vaSize % 4096 = 0) :
    ∃ h' l₁ news l₂, as = l₁ ++ l₂ ∧ l₁ ≠ [] ∧ computePoolAlloc libc h ctx bo = .ok h' ∧
      IsPool h' (h.contexts.cell ctx).vmPool (l₁ ++ news ++ l₂) ∧ Grew h h' as news ∧
      h'.entries (l₁ ++ news ++ l₂) = place bo (h.buffer bo)
        (h.fragmentSizes bo 0 (h.buffer bo).fragmentNumber) (h.entries as) ∧
      ∀ j < (h.buffer bo).fragmentNumber, ∃ a ∈ news, (h'.nodes.cell a).toPoolEntry =
          { va := (startAddress (h.buffer bo) (h.entries as) +
              ((h.fragmentSizes bo 0 (h.buffer bo).fragmentNumber).take j).sum) % 2 ^ 64
            size := (h.buffer (bo.add j)).vaSize, parentBo := bo, bo := bo.add j } ∧
        (h'.buffer (bo.add j)).va = (h'.nodes.cell a).va := by
  obtain ⟨h', l₁, news, l₂, split, nonempty, run, pool', grew, placed⟩ :=
    computePoolAlloc_spec libc ctxLive pool valid positive page
  refine ⟨h', l₁, news, l₂, split, nonempty, run, pool', grew, placed, fun j hj => ?_⟩
  have listed : h.entries as ≠ [] := by
    have head := List.mem_of_head? pool.head_eq
    simpa [Heap.entries] using List.ne_nil_of_mem head
  obtain ⟨fresh, perm, count, starts⟩ := @place_news bo (h.buffer bo)
    (h.fragmentSizes bo 0 (h.buffer bo).fragmentNumber) (h.entries as) listed (by
      intro single
      simp [Heap.fragmentSizes, single])
  have newsPerm := grew.news_perm split pool.live placed perm
  have inSizes : j < (h.fragmentSizes bo 0 (h.buffer bo).fragmentNumber).length := by
    simpa using hj
  have entry := starts j inSizes
  obtain ⟨a, isNew, same⟩ := Heap.mem_entries.mp
    (newsPerm.mem_iff.mpr (List.mem_of_getElem? entry))
  have own : (h'.nodes.cell a).bo = bo.add j := by rw [same]
  refine ⟨a, isNew, ?_, ?_⟩
  · rw [same]
    simp [Heap.fragmentSizes]
  · have va := grew.va a isNew
    rwa [own] at va

/-! ## The lowest gap -/

/-- In an ordered pool the gap test compares the length of the gap. -/
theorem gapFits_iff {b : GpuBuffer} {n next : PoolEntry}
    (order : Before PoolEntry.va PoolEntry.size n next) (below : next.va < 2 ^ 64) :
    gapFits b n next = true ↔ b.vaSize < next.va - (n.va + n.size) ∧ b.alignment ≤ 4096 := by
  unfold Before at order
  simp only [gapFits, Bool.and_eq_true, decide_eq_true_eq]
  rw [sub64_of_le below (by omega), sub64_of_le (by omega) (by omega), Nat.sub_sub]

section Ordered

variable {b : GpuBuffer} {n next : PoolEntry} {pool rest : List PoolEntry}

theorem PoolOrdered.tail (ordered : PoolOrdered (n :: rest)) : PoolOrdered rest :=
  (List.pairwise_cons.mp ordered).2

theorem PoolOrdered.before (ordered : PoolOrdered (n :: next :: rest)) :
    Before PoolEntry.va PoolEntry.size n next :=
  (List.pairwise_cons.mp ordered).1 next List.mem_cons_self

theorem Below.tail (below : Below (n :: rest)) : Below rest := fun e member =>
  below e (List.mem_cons_of_mem _ member)

theorem poolEnd_cons_cons : poolEnd (n :: next :: rest) = poolEnd (next :: rest) := by
  simp [poolEnd, List.getLast?_cons_cons]

/-- No address is given out below the first range. -/
theorem firstFit_ge (ordered : PoolOrdered (n :: rest)) (below : Below (n :: rest)) :
    n.va + n.size ≤ firstFit b (n :: rest) := by
  induction rest generalizing n with
  | nil => rw [firstFit, add64_of_lt (below n List.mem_cons_self)]
  | cons next rest ih =>
      have here := add64_of_lt (below n List.mem_cons_self)
      have later := ih ordered.tail below.tail
      have before := ordered.before
      unfold Before at before
      rw [firstFit]
      split <;> omega

/-- A pool whose ranges all end at `bound` or below ends there or below. -/
theorem poolEnd_le {bound : Nat} (le : ∀ e ∈ pool, e.va + e.size ≤ bound) :
    poolEnd pool ≤ bound := by
  unfold poolEnd
  cases last : pool.getLast? with
  | none => exact Nat.zero_le _
  | some e => exact le e (List.mem_of_getLast? last)

/-- **First fit is missed exactly at an exact fit.** -/
theorem firstFit_eq_iff (ordered : PoolOrdered (n :: rest)) (below : Below (n :: rest))
    (positive : ∀ e ∈ rest, 0 < e.size) (aligned : b.alignment ≤ 4096) :
    firstFit b (n :: rest) =
        ((lowestGap b.vaSize (n :: rest)).map Prod.fst).getD (poolEnd (n :: rest)) ↔
      ∀ g, lowestGap b.vaSize (n :: rest) = some g → b.vaSize < g.2 := by
  induction rest generalizing n with
  | nil =>
      have here := add64_of_lt (below n List.mem_cons_self)
      simp [firstFit, lowestGap, poolEnd, here]
  | cons next rest ih =>
      have here := add64_of_lt (below n List.mem_cons_self)
      have nextBelow := below next (by simp)
      have fits := @gapFits_iff b n next ordered.before (by omega)
      have before := ordered.before
      unfold Before at before
      by_cases room : b.vaSize ≤ next.va - (n.va + n.size)
      · have gap : lowestGap b.vaSize (n :: next :: rest) =
            some (n.va + n.size, next.va - (n.va + n.size)) := by
          rw [lowestGap, if_pos room]
        simp only [gap, Option.map_some, Option.getD_some, Option.some.injEq, forall_eq']
        by_cases strict : b.vaSize < next.va - (n.va + n.size)
        · rw [firstFit, if_pos (fits.mpr ⟨strict, aligned⟩), here]
          simp [strict]
        · -- an exact fit is passed over, and every later address is higher
          have later := @firstFit_ge b next rest ordered.tail below.tail
          have size := positive next List.mem_cons_self
          rw [firstFit, if_neg (fun fit => strict (fits.mp fit).1)]
          refine iff_of_false ?_ strict
          omega
      · have miss : ¬ gapFits b n next = true := fun fit => room (Nat.le_of_lt (fits.mp fit).1)
        have gap : lowestGap b.vaSize (n :: next :: rest) = lowestGap b.vaSize (next :: rest) := by
          rw [lowestGap, if_neg room]
        rw [firstFit, if_neg miss, gap, poolEnd_cons_cons]
        exact ih ordered.tail below.tail fun e member => positive e (List.mem_cons_of_mem _ member)

/-- A single fragment raises the end of the pool exactly when no gap is
strictly larger than it. -/
theorem place_end {bo : BufPtr} (ordered : PoolOrdered (n :: rest)) (below : Below (n :: rest))
    (aligned : b.alignment ≤ 4096) (one : b.fragmentNumber = 1) :
    poolEnd (place bo b [b.vaSize] (n :: rest)) =
      if (lowestGap (b.vaSize + 1) (n :: rest)).isSome then poolEnd (n :: rest)
      else poolEnd (n :: rest) + b.vaSize := by
  induction rest generalizing n with
  | nil =>
      have here := add64_of_lt (below n List.mem_cons_self)
      simp [place, appendEntries, lowestGap, poolEnd, here]
  | cons next rest ih =>
      have nextBelow := below next (by simp)
      have fits := @gapFits_iff b n next ordered.before (by omega)
      by_cases strict : b.vaSize + 1 ≤ next.va - (n.va + n.size)
      · have fit : b.fragmentNumber = 1 ∧ gapFits b n next = true :=
          ⟨one, fits.mpr ⟨strict, aligned⟩⟩
        rw [place, if_pos fit, lowestGap, if_pos strict, Option.isSome_some, if_pos rfl,
          poolEnd_cons_cons, poolEnd_cons_cons, poolEnd_cons_cons]
      · have miss : ¬ (b.fragmentNumber = 1 ∧ gapFits b n next = true) := fun fit =>
          strict (fits.mp fit.2).1
        have later := ih ordered.tail below.tail
        have nonempty : place bo b [b.vaSize] (next :: rest) ≠ [] := by
          have sub := sublist_place bo b [b.vaSize] (next :: rest)
          intro empty
          rw [empty] at sub
          exact absurd (List.sublist_nil.mp sub) (by simp)
        obtain ⟨x, l, shape⟩ := List.exists_cons_of_ne_nil nonempty
        rw [place, if_neg miss, lowestGap, if_neg strict, poolEnd_cons_cons, ← later, shape,
          poolEnd_cons_cons]

end Ordered

end RadeonsiCompute
