import RadeonsiCompute.Pool.Grow
import RadeonsiCompute.Pool.Shrink

/-!
# Freeing undoes allocating

A doubly linked list is determined by its nodes in order: two heaps that link
the same nodes the same way agree on every `prev` and `next`. So where
`compute_pool_alloc` and `compute_pool_free` lead back to the same list of
nodes, they lead back to the same links, and two frees in either order meet.
-/

namespace RadeonsiCompute

open Lib

/-- The same nodes are allocated, with the same contents. -/
structure SameNodes (h h' : Heap) : Prop where
  live : h'.nodes.live = h.nodes.live
  cell : ∀ a ∈ h.nodes.live, h'.nodes.cell a = h.nodes.cell a

theorem PoolNode.eq_of_parts {n m : PoolNode} (entry : n.toPoolEntry = m.toPoolEntry)
    (prev : n.prev = m.prev) (next : n.next = m.next) : n = m := by
  cases n
  cases m
  simp_all

/-- Two heaps that list the same nodes with the same ranges agree on them. -/
theorem IsPool.cell_eq {h h' : Heap} {head : Addr} {as : List Addr} (pool : IsPool h head as)
    (pool' : IsPool h' head as)
    (entry : ∀ a ∈ as, (h'.nodes.cell a).toPoolEntry = (h.nodes.cell a).toPoolEntry) :
    ∀ a ∈ as, h'.nodes.cell a = h.nodes.cell a := by
  intro a member
  obtain ⟨next, prev⟩ := pool.linked.unique pool'.linked a member
  exact PoolNode.eq_of_parts (entry a member) prev next

section Inverse

variable {h h₁ h₂ : Heap} {ctx : Addr} {bo : BufPtr} {as l₁ news l₂ : List Addr}

/-- Of a list that gained nodes of `bo` only, the others are the old list. -/
theorem Grew.nodesNotOf (grew : Grew h h₁ as news) (split : as = l₁ ++ l₂)
    (pool : IsPool h (h.contexts.cell ctx).vmPool as)
    (foreign : ∀ a ∈ as, (h.nodes.cell a).parentBo ≠ bo)
    (sizes : List Nat) (b : GpuBuffer)
    (placed : h₁.entries (l₁ ++ news ++ l₂) = place bo b sizes (h.entries as)) :
    h₁.nodesNotOf bo (l₁ ++ news ++ l₂) = as ∧ h₁.nodesOf bo (l₁ ++ news ++ l₂) = news := by
  have stay : ∀ a ∈ as, (h₁.nodes.cell a).parentBo ≠ bo := by
    intro a member
    rw [grew.entry_old (pool.live a member)]
    exact foreign a member
  have left : h₁.nodesNotOf bo l₁ = l₁ := List.filter_eq_self.mpr fun a member => by
    simpa using stay a (by simp [split, member])
  have right : h₁.nodesNotOf bo l₂ = l₂ := List.filter_eq_self.mpr fun a member => by
    simpa using stay a (by simp [split, member])
  have entries : h₁.entries (h₁.nodesNotOf bo (l₁ ++ news ++ l₂)) = h.entries as := by
    rw [Heap.entries_nodesNotOf, placed]
    refine release_place fun e member => ?_
    obtain ⟨a, inList, rfl⟩ := Heap.mem_entries.mp member
    exact foreign a inList
  have parts : h₁.nodesNotOf bo (l₁ ++ news ++ l₂) = l₁ ++ h₁.nodesNotOf bo news ++ l₂ := by
    have append : ∀ l l', h₁.nodesNotOf bo (l ++ l') = h₁.nodesNotOf bo l ++ h₁.nodesNotOf bo l' :=
      fun l l' => List.filter_append l l'
    rw [append, append, left, right]
  -- the lengths leave no room for a new node of another buffer
  have noOther : h₁.nodesNotOf bo news = [] := by
    have lengths := congrArg List.length entries
    rw [parts] at lengths
    simp only [Heap.entries, List.length_map, List.length_append, split] at lengths
    exact List.eq_nil_of_length_eq_zero (by omega)
  refine ⟨by rw [parts, noOther, split, List.append_nil], ?_⟩
  have own : h₁.nodesOf bo news = news := by
    refine List.filter_eq_self.mpr fun a member => ?_
    by_contra other
    have inOthers : a ∈ h₁.nodesNotOf bo news :=
      List.mem_filter.mpr ⟨member, by simpa using other⟩
    rw [noOther] at inOthers
    exact absurd inOthers (by simp)
  have none : ∀ l, (∀ a ∈ l, a ∈ as) → h₁.nodesOf bo l = [] := by
    intro l inList
    refine List.filter_eq_nil_iff.mpr fun a member => ?_
    simpa using stay a (inList a member)
  have append : ∀ l l', h₁.nodesOf bo (l ++ l') = h₁.nodesOf bo l ++ h₁.nodesOf bo l' :=
    fun l l' => List.filter_append l l'
  rw [append, append, own, none l₁ (fun a member => by simp [split, member]),
    none l₂ (fun a member => by simp [split, member]), List.nil_append, List.append_nil]

/-- A buffer with fragments gets at least one node. -/
theorem Grew.listed (grew : Grew h h₁ as news) (split : as = l₁ ++ l₂) (nonempty : as ≠ [])
    (pool : IsPool h (h.contexts.cell ctx).vmPool as)
    (foreign : ∀ a ∈ as, (h.nodes.cell a).parentBo ≠ bo)
    (positive : 0 < (h.buffer bo).fragmentNumber)
    (placed : h₁.entries (l₁ ++ news ++ l₂) = place bo (h.buffer bo)
      (h.fragmentSizes bo 0 (h.buffer bo).fragmentNumber) (h.entries as)) :
    ∃ a ∈ l₁ ++ news ++ l₂, (h₁.nodes.cell a).parentBo = bo := by
  obtain ⟨-, own⟩ := grew.nodesNotOf split pool foreign _ _ placed
  obtain ⟨fresh, perm, -, sizes, -⟩ := @place_perm bo (h.buffer bo)
    (h.fragmentSizes bo 0 (h.buffer bo).fragmentNumber) (h.entries as)
    (by simpa [Heap.entries] using nonempty) (by
      intro single
      simp [Heap.fragmentSizes, single])
  have count := perm.length_eq
  rw [← placed] at count
  have number := congrArg List.length sizes
  simp only [Heap.entries, List.length_map, List.length_append, Heap.fragmentSizes_length,
    split] at count number
  cases news with
  | nil => simp only [List.length_nil] at count; omega
  | cons a news =>
      have member : a ∈ h₁.nodesOf bo (l₁ ++ a :: news ++ l₂) := by
        rw [own]
        exact List.mem_cons_self
      obtain ⟨inList, mine⟩ := List.mem_filter.mp member
      exact ⟨a, inList, by simpa using mine⟩

/-- `compute_pool_free` of a buffer with a node in the pool, the first node
being someone else's, removes exactly the nodes of that buffer. -/
theorem computePoolFree_removes (ctxLive : ctx ∈ h.contexts.live)
    (pool : IsPool h (h.contexts.cell ctx).vmPool as)
    (foreign : (h.nodes.cell (h.contexts.cell ctx).vmPool).parentBo ≠ bo)
    (listed : ∃ a ∈ as, (h.nodes.cell a).parentBo = bo) :
    ∃ h', computePoolFree h ctx bo = .ok h' ∧
      IsPool h' (h.contexts.cell ctx).vmPool (h.nodesNotOf bo as) ∧
      Shrank h h' as (h.nodesOf bo as) := by
  cases as with
  | nil => exact absurd pool.head_eq (by simp)
  | cons n rest =>
      obtain rfl : n = (h.contexts.cell ctx).vmPool := by simpa using pool.head_eq
      obtain ⟨a, member, mine⟩ := listed
      have owned : h.nodesOf bo rest ≠ [] := by
        rcases List.mem_cons.mp member with rfl | inRest
        · exact absurd mine foreign
        · exact List.ne_nil_of_mem (List.mem_filter.mpr ⟨inRest, by simpa using mine⟩)
      obtain ⟨h', run, pool', shrank⟩ := computePoolFree_spec ctxLive pool foreign owned
      have consOf : h.nodesOf bo ((h.contexts.cell ctx).vmPool :: rest) = h.nodesOf bo rest := by
        simp [Heap.nodesOf, foreign]
      have consNotOf : h.nodesNotOf bo ((h.contexts.cell ctx).vmPool :: rest) =
          (h.contexts.cell ctx).vmPool :: h.nodesNotOf bo rest := by
        simp [Heap.nodesNotOf, foreign]
      rw [consOf, consNotOf]
      exact ⟨h', run, pool', shrank⟩

/-- Allocating and then freeing leads back to the heap it started from, the
addresses in the buffer apart. -/
theorem computePoolAlloc_free (libc : Libc) (ctxLive : ctx ∈ h.contexts.live)
    (pool : IsPool h (h.contexts.cell ctx).vmPool as)
    (foreign : ∀ a ∈ as, (h.nodes.cell a).parentBo ≠ bo)
    (valid : ∀ i < (h.buffer bo).fragmentNumber, h.ValidBuffer (bo.add i))
    (positive : 0 < (h.buffer bo).fragmentNumber) (page : (h.buffer bo).vaSize % 4096 = 0) :
    ∃ h₁ h₂, computePoolAlloc libc h ctx bo = .ok h₁ ∧ computePoolFree h₁ ctx bo = .ok h₂ ∧
      IsPool h₂ (h₂.contexts.cell ctx).vmPool as ∧ SameNodes h h₂ ∧ h₂.contexts = h.contexts ∧
      h₂.buffers.live = h.buffers.live ∧
      ∀ p, h₂.buffer p = { h.buffer p with va := (h₂.buffer p).va } := by
  obtain ⟨h₁, l₁, news, l₂, split, nonempty, run, pool₁, grew, placed⟩ :=
    computePoolAlloc_spec libc ctxLive pool valid positive page
  obtain ⟨others, own⟩ := grew.nodesNotOf split pool foreign _ _ placed
  have head : (h.contexts.cell ctx).vmPool ∈ as := List.mem_of_head? pool.head_eq
  have foreign₁ : (h₁.nodes.cell (h₁.contexts.cell ctx).vmPool).parentBo ≠ bo := by
    rw [grew.contexts, grew.entry_old (pool.live _ head)]
    exact foreign _ head
  have listed := grew.listed split (List.ne_nil_of_mem head) pool foreign positive placed
  have pool₁' : IsPool h₁ (h₁.contexts.cell ctx).vmPool (l₁ ++ news ++ l₂) := by
    rw [grew.contexts]
    exact pool₁
  obtain ⟨h₂, run₂, pool₂, shrank⟩ :=
    computePoolFree_removes (by rw [grew.contexts]; exact ctxLive) pool₁' foreign₁ listed
  rw [others] at pool₂
  rw [own] at shrank
  have pool₂' : IsPool h₂ (h.contexts.cell ctx).vmPool as := by
    rw [← grew.contexts]
    exact pool₂
  have inList : ∀ a ∈ as, a ∈ l₁ ++ news ++ l₂ := by
    intro a member
    rw [split] at member
    simp at member ⊢
    tauto
  have live : ∀ a, a ∈ h₂.nodes.live ↔ a ∈ h.nodes.live := by
    intro a
    rw [shrank.live, grew.live]
    constructor
    · rintro ⟨old | isNew, notGone⟩
      · exact old
      · exact absurd isNew notGone
    · intro old
      exact ⟨.inl old, fun isNew => grew.fresh a isNew old⟩
  refine ⟨h₁, h₂, run, run₂, ?_, ⟨Finset.ext live, ?_⟩, ?_, ?_, ?_⟩
  · rw [shrank.contexts]
    exact pool₂
  · intro a old
    by_cases member : a ∈ as
    · refine pool.cell_eq pool₂' (fun x inPool => ?_) a member
      rw [shrank.entry, grew.entry_old (pool.live x inPool)]
    · have notNew : a ∉ news := fun isNew => grew.fresh a isNew old
      have notListed : a ∉ l₁ ++ news ++ l₂ := by
        rw [split] at member
        simp at member ⊢
        tauto
      rw [shrank.otherNode a notListed, grew.otherNode a member notNew]
  · rw [shrank.contexts, grew.contexts]
  · rw [shrank.buffers, grew.buffersLive]
  · intro p
    rw [shrank.buffer, grew.fields p]

/-- Two frees, in one order. -/
theorem computePoolFree_twice {b b' : BufPtr} (ctxLive : ctx ∈ h.contexts.live)
    (pool : IsPool h (h.contexts.cell ctx).vmPool as) (distinct : b ≠ b')
    (foreign : (h.nodes.cell (h.contexts.cell ctx).vmPool).parentBo ≠ b)
    (foreign' : (h.nodes.cell (h.contexts.cell ctx).vmPool).parentBo ≠ b')
    (listed : ∃ a ∈ as, (h.nodes.cell a).parentBo = b)
    (listed' : ∃ a ∈ as, (h.nodes.cell a).parentBo = b') :
    ∃ h₁ h₂, computePoolFree h ctx b = .ok h₁ ∧ computePoolFree h₁ ctx b' = .ok h₂ ∧
      IsPool h₂ (h.contexts.cell ctx).vmPool (h.nodesNotOf b' (h.nodesNotOf b as)) ∧
      Shrank h h₂ as (h.nodesOf b as ++ h.nodesOf b' (h.nodesNotOf b as)) := by
  obtain ⟨h₁, run₁, pool₁, shrank₁⟩ := computePoolFree_removes ctxLive pool foreign listed
  have sameOf : ∀ l, h₁.nodesOf b' l = h.nodesOf b' l := fun l =>
    List.filter_congr fun x _ => by rw [shrank₁.entry]
  have sameNotOf : ∀ l, h₁.nodesNotOf b' l = h.nodesNotOf b' l := fun l =>
    List.filter_congr fun x _ => by rw [shrank₁.entry]
  have pool₁' : IsPool h₁ (h₁.contexts.cell ctx).vmPool (h.nodesNotOf b as) := by
    rw [shrank₁.contexts]
    exact pool₁
  obtain ⟨a, member, mine⟩ := listed'
  obtain ⟨h₂, run₂, pool₂, shrank₂⟩ := computePoolFree_removes
    (by rw [shrank₁.contexts]; exact ctxLive) pool₁'
    (by rw [shrank₁.contexts, shrank₁.entry]; exact foreign')
    ⟨a, List.mem_filter.mpr ⟨member, by simpa [mine] using Ne.symm distinct⟩,
      by rw [shrank₁.entry]; exact mine⟩
  rw [sameOf] at shrank₂
  rw [sameNotOf, shrank₁.contexts] at pool₂
  exact ⟨h₁, h₂, run₁, run₂, pool₂,
    shrank₁.trans shrank₂ fun x inList => List.mem_of_mem_filter inList⟩

/-- Either order leaves the nodes of the other buffers. -/
theorem Heap.nodesNotOf_nodesNotOf (h : Heap) (b b' : BufPtr) (as : List Addr) :
    h.nodesNotOf b' (h.nodesNotOf b as) =
      as.filter fun a => (h.nodes.cell a).parentBo ≠ b ∧ (h.nodes.cell a).parentBo ≠ b' := by
  simp only [Heap.nodesNotOf, List.filter_filter, Bool.decide_and, Bool.and_comm]

/-- Either order removes the nodes of the two buffers. -/
theorem Heap.mem_nodesOf_twice (h : Heap) {b b' : BufPtr} (distinct : b ≠ b') {as : List Addr}
    {a : Addr} :
    a ∈ h.nodesOf b as ++ h.nodesOf b' (h.nodesNotOf b as) ↔
      a ∈ as ∧ ((h.nodes.cell a).parentBo = b ∨ (h.nodes.cell a).parentBo = b') := by
  simp only [Heap.nodesOf, Heap.nodesNotOf, List.mem_append, List.mem_filter, decide_eq_true_eq]
  by_cases isB : (h.nodes.cell a).parentBo = b
  · simp [isB, distinct]
  · simp [isB]

/-- Frees of two buffers lead to the same pool in either order. -/
theorem computePoolFree_comm {b b' : BufPtr} (ctxLive : ctx ∈ h.contexts.live)
    (pool : IsPool h (h.contexts.cell ctx).vmPool as) (distinct : b ≠ b')
    (foreign : (h.nodes.cell (h.contexts.cell ctx).vmPool).parentBo ≠ b)
    (foreign' : (h.nodes.cell (h.contexts.cell ctx).vmPool).parentBo ≠ b')
    (listed : ∃ a ∈ as, (h.nodes.cell a).parentBo = b)
    (listed' : ∃ a ∈ as, (h.nodes.cell a).parentBo = b') :
    ∃ h₁ h₂ h₁' h₂', computePoolFree h ctx b = .ok h₁ ∧ computePoolFree h₁ ctx b' = .ok h₂ ∧
      computePoolFree h ctx b' = .ok h₁' ∧ computePoolFree h₁' ctx b = .ok h₂' ∧
      IsPool h₂ (h.contexts.cell ctx).vmPool
        (as.filter fun a => (h.nodes.cell a).parentBo ≠ b ∧ (h.nodes.cell a).parentBo ≠ b') ∧
      SameNodes h₂ h₂' ∧ h₂'.contexts = h₂.contexts ∧ h₂'.buffers = h₂.buffers := by
  obtain ⟨h₁, h₂, run₁, run₂, pool₂, shrank⟩ :=
    computePoolFree_twice ctxLive pool distinct foreign foreign' listed listed'
  obtain ⟨h₁', h₂', run₁', run₂', pool₂', shrank'⟩ :=
    computePoolFree_twice ctxLive pool distinct.symm foreign' foreign listed' listed
  rw [h.nodesNotOf_nodesNotOf] at pool₂
  have right : h.nodesNotOf b (h.nodesNotOf b' as) =
      as.filter fun a => (h.nodes.cell a).parentBo ≠ b ∧ (h.nodes.cell a).parentBo ≠ b' := by
    rw [h.nodesNotOf_nodesNotOf]
    exact List.filter_congr fun a _ => decide_eq_decide.mpr and_comm
  rw [right] at pool₂'
  refine ⟨h₁, h₂, h₁', h₂', run₁, run₂, run₁', run₂', pool₂, ⟨?_, ?_⟩, ?_, ?_⟩
  · ext a
    rw [shrank.live, shrank'.live, h.mem_nodesOf_twice distinct, h.mem_nodesOf_twice distinct.symm,
      or_comm]
  · intro a live
    by_cases member : a ∈ as
    · obtain ⟨-, stays⟩ := (shrank.live a).mp live
      refine pool₂.cell_eq pool₂' (fun x _ => ?_) a ?_
      · rw [shrank'.entry, shrank.entry]
      · rw [h.mem_nodesOf_twice distinct, not_and, not_or] at stays
        exact List.mem_filter.mpr ⟨member, by simpa using stays member⟩
    · rw [shrank'.otherNode a member, shrank.otherNode a member]
  · rw [shrank'.contexts, shrank.contexts]
  · rw [shrank'.buffers, shrank.buffers]

/-- **Freeing is the inverse of allocating.** On every linked pool: allocating
a buffer that owns no node and freeing it restores every node; freeing removes
the nodes of one buffer, keeps the others with their ranges in order, and
relinks them; and two frees commute. -/
theorem poolFree_inverse (ctxLive : ctx ∈ h.contexts.live)
    (pool : IsPool h (h.contexts.cell ctx).vmPool as) :
    (∀ (libc : Libc) (bo : BufPtr), (∀ a ∈ as, (h.nodes.cell a).parentBo ≠ bo) →
      (∀ i < (h.buffer bo).fragmentNumber,
        h.ValidBuffer (bo.add i) ∧ (h.buffer (bo.add i)).vaSize % 4096 = 0) →
      0 < (h.buffer bo).fragmentNumber →
      ∃ h₁ h₂, computePoolAlloc libc h ctx bo = .ok h₁ ∧ computePoolFree h₁ ctx bo = .ok h₂ ∧
        IsPool h₂ (h₂.contexts.cell ctx).vmPool as ∧ SameNodes h h₂ ∧
        h₂.contexts = h.contexts ∧ h₂.buffers.live = h.buffers.live ∧
        ∀ p, h₂.buffer p = { h.buffer p with va := (h₂.buffer p).va }) ∧
    (∀ bo : BufPtr, (h.nodes.cell (h.contexts.cell ctx).vmPool).parentBo ≠ bo →
      (∃ a ∈ as, (h.nodes.cell a).parentBo = bo) →
      ∃ h', computePoolFree h ctx bo = .ok h' ∧
        IsPool h' (h.contexts.cell ctx).vmPool (h.nodesNotOf bo as) ∧
        Shrank h h' as (h.nodesOf bo as)) ∧
    ∀ b b' : BufPtr, b ≠ b' →
      (h.nodes.cell (h.contexts.cell ctx).vmPool).parentBo ≠ b →
      (h.nodes.cell (h.contexts.cell ctx).vmPool).parentBo ≠ b' →
      (∃ a ∈ as, (h.nodes.cell a).parentBo = b) → (∃ a ∈ as, (h.nodes.cell a).parentBo = b') →
      ∃ h₁ h₂ h₁' h₂', computePoolFree h ctx b = .ok h₁ ∧ computePoolFree h₁ ctx b' = .ok h₂ ∧
        computePoolFree h ctx b' = .ok h₁' ∧ computePoolFree h₁' ctx b = .ok h₂' ∧
        IsPool h₂ (h.contexts.cell ctx).vmPool
          (as.filter fun a => (h.nodes.cell a).parentBo ≠ b ∧ (h.nodes.cell a).parentBo ≠ b') ∧
        SameNodes h₂ h₂' ∧ h₂'.contexts = h₂.contexts ∧ h₂'.buffers = h₂.buffers := by
  refine ⟨?_, ?_, ?_⟩
  · intro libc bo foreign fragments positive
    have page := (fragments 0 positive).2
    rw [BufPtr.add_zero] at page
    exact computePoolAlloc_free libc ctxLive pool foreign (fun i hi => (fragments i hi).1)
      positive page
  · intro bo foreign listed
    exact computePoolFree_removes ctxLive pool foreign listed
  · intro b b' distinct foreign foreign' listed listed'
    exact computePoolFree_comm ctxLive pool distinct foreign foreign' listed listed'

/-- A pool with a gap between its second and third node, and an array of two
fragments that has no node. -/
def Heap.threeNodes : Heap where
  nodes :=
    { cell := fun a => match a with
        | 0 => { va := 0, size := 4096, parentBo := ⟨9, 0⟩, bo := ⟨9, 0⟩, prev := none, next := some 1 }
        | 1 => { va := 4096, size := 4096, parentBo := ⟨1, 0⟩, bo := ⟨1, 0⟩, prev := some 0, next := some 2 }
        | _ => { va := 16384, size := 4096, parentBo := ⟨2, 0⟩, bo := ⟨2, 0⟩, prev := some 1, next := none }
      live := {0, 1, 2} }
  buffers :=
    { cell := fun _ => { count := 2, elem := fun i =>
        { GpuBuffer.zero with vaSize := 4096, fragmentNumber := if i = 0 then 2 else 0 } }
      live := {3} }
  contexts := { cell := fun _ => ⟨3, 0⟩, live := {0} }

/-- The array is allocated behind the last node and freed again, and the two
buffers of the pool are freed in either order. -/
theorem poolFree_inverse_threeNodes :
    (∃ h₁ h₂, computePoolAlloc ⟨.above, .above⟩ .threeNodes 0 ⟨3, 0⟩ = .ok h₁ ∧
      computePoolFree h₁ 0 ⟨3, 0⟩ = .ok h₂ ∧ SameNodes .threeNodes h₂) ∧
    ∃ h₁ h₂ h₁' h₂', computePoolFree .threeNodes 0 ⟨1, 0⟩ = .ok h₁ ∧
      computePoolFree h₁ 0 ⟨2, 0⟩ = .ok h₂ ∧ computePoolFree .threeNodes 0 ⟨2, 0⟩ = .ok h₁' ∧
      computePoolFree h₁' 0 ⟨1, 0⟩ = .ok h₂' ∧ SameNodes h₂ h₂' := by
  have pool : IsPool .threeNodes (Heap.threeNodes.contexts.cell 0).vmPool [0, 1, 2] :=
    ⟨rfl, ⟨rfl, rfl, rfl, rfl, rfl, rfl, trivial⟩, by decide, by decide⟩
  obtain ⟨inverse, -, comm⟩ := @poolFree_inverse .threeNodes 0 [0, 1, 2] (by decide) pool
  refine ⟨?_, ?_⟩
  · obtain ⟨h₁, h₂, alloc, free, -, same, -⟩ := inverse ⟨.above, .above⟩ ⟨3, 0⟩ (by decide) (by
      intro i hi
      have two : i < 2 := hi
      refine ⟨⟨Finset.mem_singleton_self _, ?_⟩, ?_⟩
      · show 0 + i < 2
        omega
      · show 4096 % 4096 = 0
        rfl) (by decide)
    exact ⟨h₁, h₂, alloc, free, same⟩
  · obtain ⟨h₁, h₂, h₁', h₂', one, two, one', two', -, same, -⟩ := comm ⟨1, 0⟩ ⟨2, 0⟩ (by decide)
      (by decide) (by decide) ⟨1, by decide, rfl⟩ ⟨2, by decide, rfl⟩
    exact ⟨h₁, h₂, h₁', h₂', one, two, one', two', same⟩

end Inverse

end RadeonsiCompute
