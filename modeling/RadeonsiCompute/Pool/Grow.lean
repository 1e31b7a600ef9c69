import RadeonsiCompute.Pool.Abstract
import RadeonsiCompute.Pool.Links

/-!
# Allocation on the heap refines `place`

`compute_pool_alloc` walks the linked list and either inserts one node or
appends one for each fragment. `computePoolAlloc_spec` says it always returns,
that the list it leaves reads as `place` of the list it found, and that apart
from the new nodes and the `va` fields of the buffer nothing has changed
(`Grew`).
-/

namespace RadeonsiCompute

open Lib

/-- Heap `h'` is `h` with the nodes `news` added to the pool `as` and the `va`
of the fragments they belong to filled in. -/
structure Grew (h h' : Heap) (as news : List Addr) : Prop where
  fresh : ∀ a ∈ news, a ∉ h.nodes.live
  live : ∀ a, a ∈ h'.nodes.live ↔ a ∈ h.nodes.live ∨ a ∈ news
  entry : ∀ a, a ∉ news →
    (h'.nodes.cell a).toPoolEntry = (h.nodes.cell a).toPoolEntry
  otherNode : ∀ a, a ∉ as → a ∉ news → h'.nodes.cell a = h.nodes.cell a
  contexts : h'.contexts = h.contexts
  buffersLive : h'.buffers.live = h.buffers.live
  count : ∀ a, (h'.buffers.cell a).count = (h.buffers.cell a).count
  fields : ∀ p, h'.buffer p = { h.buffer p with va := (h'.buffer p).va }
  otherBuffer : ∀ p, (∀ a ∈ news, (h'.nodes.cell a).bo ≠ p) → h'.buffer p = h.buffer p
  va : ∀ a ∈ news, (h'.buffer (h'.nodes.cell a).bo).va = (h'.nodes.cell a).va

namespace Grew

variable {h h' h'' : Heap} {as as' news news' : List Addr}

theorem validBuffer (grew : Grew h h' as news) {p : BufPtr} :
    h'.ValidBuffer p ↔ h.ValidBuffer p := by
  simp only [Heap.ValidBuffer, grew.buffersLive, grew.count]

theorem refl (h : Heap) (as : List Addr) : Grew h h as [] := by
  constructor <;> simp

/-- The nodes that were there keep their ranges. -/
theorem entry_old (grew : Grew h h' as news) {a : Addr} (old : a ∈ h.nodes.live) :
    (h'.nodes.cell a).toPoolEntry = (h.nodes.cell a).toPoolEntry :=
  grew.entry a fun isNew => grew.fresh a isNew old

/-- Additions for different fragments compose. -/
theorem trans (first : Grew h h' as news) (second : Grew h' h'' as' news')
    (members : ∀ a ∈ as', a ∈ as ∨ a ∈ news)
    (apart : ∀ a ∈ news, ∀ b ∈ news', (h'.nodes.cell a).bo ≠ (h''.nodes.cell b).bo) :
    Grew h h'' as (news ++ news') := by
  have unchanged : ∀ a ∈ news, a ∉ news' := by
    intro a inFirst inSecond
    exact second.fresh a inSecond ((first.live a).mpr (.inr inFirst))
  have bo : ∀ a ∈ news, (h''.nodes.cell a).bo = (h'.nodes.cell a).bo := by
    intro a inFirst
    rw [second.entry a (unchanged a inFirst)]
  constructor
  · intro a member isLive
    rcases List.mem_append.mp member with inFirst | inSecond
    · exact first.fresh a inFirst isLive
    · exact second.fresh a inSecond ((first.live a).mpr (.inl isLive))
  · intro a
    rw [second.live, first.live, List.mem_append]
    tauto
  · intro a outside
    simp only [List.mem_append, not_or] at outside
    rw [second.entry a outside.2, first.entry a outside.1]
  · intro a notOld outside
    simp only [List.mem_append, not_or] at outside
    rw [second.otherNode a ?_ outside.2, first.otherNode a notOld outside.1]
    intro inList
    rcases members a inList with old | new
    · exact notOld old
    · exact outside.1 new
  · rw [second.contexts, first.contexts]
  · rw [second.buffersLive, first.buffersLive]
  · intro a
    rw [second.count, first.count]
  · intro p
    rw [second.fields p, first.fields p]
  · intro p noOwner
    rw [second.otherBuffer p ?_, first.otherBuffer p ?_]
    · intro a inFirst
      rw [← bo a inFirst]
      exact noOwner a (List.mem_append_left _ inFirst)
    · intro a inSecond
      exact noOwner a (List.mem_append_right _ inSecond)
  · intro a member
    rcases List.mem_append.mp member with inFirst | inSecond
    · have kept : h''.buffer (h'.nodes.cell a).bo = h'.buffer (h'.nodes.cell a).bo := by
        refine second.otherBuffer _ fun b inSecond => ?_
        exact (apart a inFirst b inSecond).symm
      rw [bo a inFirst, kept, first.va a inFirst, second.entry a (unchanged a inFirst)]
    · exact second.va a inSecond

end Grew

/-! ## One new node -/

/-- Link a new node `a` with range `e` after `n` and give its fragment that
address. -/
def Heap.addNode (h : Heap) (n a : Addr) (e : PoolEntry) : Heap :=
  (h.linkAfter n a e).setBuffer e.bo { h.buffer e.bo with va := e.va }

theorem Heap.addNode_entry_new (h : Heap) (n a : Addr) (e : PoolEntry) :
    ((h.addNode n a e).nodes.cell a).toPoolEntry = e := by
  simp [Heap.addNode]

theorem IsPool.addNode {h : Heap} {head n a : Addr} {l₁ l₂ : List Addr}
    (pool : IsPool h head (l₁ ++ n :: l₂)) (fresh : a ∉ h.nodes.live) (e : PoolEntry) :
    IsPool (h.addNode n a e) head (l₁ ++ n :: a :: l₂) :=
  let linked := pool.linkAfter fresh e
  ⟨linked.head_eq, linked.linked, linked.live, linked.nodup⟩

theorem Grew.addNode {h : Heap} {n a : Addr} {e : PoolEntry} {as : List Addr}
    (fresh : a ∉ h.nodes.live) (member : n ∈ as)
    (succ : ∀ x, (h.nodes.cell n).next = some x → x ∈ as) :
    Grew h (h.addNode n a e) as [a] := by
  have boNew : ((h.addNode n a e).nodes.cell a).bo = e.bo := by
    rw [Heap.addNode_entry_new]
  constructor
  · simpa using fresh
  · intro x
    simp [Heap.addNode, or_comm]
  · intro x other
    exact Heap.linkAfter_entry_old (by simpa using other)
  · intro x notOld other
    have notPrev : x ≠ n := by rintro rfl; exact notOld member
    have notNext : (h.nodes.cell n).next ≠ some x := fun isNext => notOld (succ x isNext)
    have notNew : x ≠ a := by simpa using other
    simp [Heap.addNode, Heap.linkAfter, notNew, notPrev, notNext]
  · rfl
  · rfl
  · intro x
    simp [Heap.addNode]
  · intro p
    rw [Heap.addNode, Heap.buffer_setBuffer]
    by_cases same : p = e.bo
    · subst same; simp
    · simp [same]
  · intro p noOwner
    have other : p ≠ e.bo := by
      rintro rfl
      exact noOwner a List.mem_cons_self boNew
    rw [Heap.addNode, Heap.buffer_setBuffer, if_neg other, Heap.linkAfter_buffer]
  · intro x isNew
    rw [List.mem_singleton.mp isNew, boNew, Heap.addNode_entry_new]
    simp [Heap.addNode, Heap.buffer_setBuffer]

/-! ## The two placements -/

section Placements

variable (libc : Libc) {h : Heap} {bo : BufPtr} {head n nx : Addr} {l₁ l₂ : List Addr}

/-- The node writes of the gap insertion are a `linkAfter`. -/
private theorem insert_cells {c : Addr → PoolNode} {a n nx : Addr} (e : PoolEntry)
    (aNe : a ≠ n) (aNeNext : a ≠ nx) (nNe : n ≠ nx) (next : (c n).next = some nx) :
    let c₁ := Function.update c a { toPoolEntry := e, prev := some n, next := (c n).next }
    let c₂ := Function.update c₁ nx { c₁ nx with prev := some a }
    Function.update c₂ n { c₂ n with next := some a } = fun x =>
      if x = a then { toPoolEntry := e, prev := some n, next := (c n).next }
      else if x = n then { c n with next := some a }
      else if (c n).next = some x then { c x with prev := some a }
      else c x := by
  intro c₁ c₂
  funext x
  by_cases isNew : x = a
  · subst isNew; simp [c₂, c₁, aNe, aNeNext]
  by_cases isPrev : x = n
  · subst isPrev; simp [c₂, c₁, isNew, nNe]
  by_cases isNext : x = nx
  · subst isNext; simp [c₂, c₁, isNew, isPrev, next]
  · simp [c₂, c₁, isNew, isPrev, isNext, next, Ne.symm isNext]

/-- The node writes of one append step are a `linkAfter` behind the last node. -/
private theorem append_cells {c : Addr → PoolNode} {a n : Addr} (e : PoolEntry)
    (aNe : a ≠ n) (last : (c n).next = none) :
    let c₁ := Function.update c a { toPoolEntry := e, prev := some n, next := none }
    Function.update c₁ n { c₁ n with next := some a } = fun x =>
      if x = a then { toPoolEntry := e, prev := some n, next := (c n).next }
      else if x = n then { c n with next := some a }
      else if (c n).next = some x then { c x with prev := some a }
      else c x := by
  intro c₁
  funext x
  by_cases isNew : x = a
  · subst isNew; simp [c₁, aNe, last]
  by_cases isPrev : x = n
  · subst isPrev; simp [c₁, isNew]
  · simp [c₁, isNew, isPrev, last]

/-- The gap insertion of `compute_pool_alloc` adds one node. -/
theorem insertNode_eq (pool : IsPool h head (l₁ ++ n :: nx :: l₂)) (valid : h.ValidBuffer bo)
    (b : GpuBuffer) :
    insertNode libc h bo b n nx (h.nodes.cell n) =
      .ok (h.addNode n (libc.node.choose h.nodes.live)
        { va := add64 (h.nodes.cell n).va (h.nodes.cell n).size, size := b.vaSize,
          parentBo := bo, bo }) := by
  have fresh := libc.node.fresh h.nodes.live
  unfold insertNode Store.malloc
  generalize libc.node.choose h.nodes.live = a at fresh
  have nLive := pool.live n (by simp)
  have nxLive := pool.live nx (by simp)
  have aNe : a ≠ n := by rintro rfl; exact fresh nLive
  have aNeNext : a ≠ nx := by rintro rfl; exact fresh nxLive
  have nNe : n ≠ nx := by
    have nodup := (List.nodup_append.mp pool.nodup).2.1
    rintro rfl
    exact (List.nodup_cons.mp nodup).1 List.mem_cons_self
  have next : (h.nodes.cell n).next = some nx := by simpa using pool.linked.next_eq
  have cells := insert_cells
    { va := add64 (h.nodes.cell n).va (h.nodes.cell n).size, size := b.vaSize,
      parentBo := bo, bo } aNe aNeNext nNe next
  dsimp only at cells ⊢
  rw [Store.modify_eq (Finset.mem_insert_self a _), ok_bind,
    Store.modify_eq (Finset.mem_insert_of_mem nxLive), ok_bind,
    Store.modify_eq (Finset.mem_insert_of_mem nLive), ok_bind]
  rw [cells, Heap.modifyBuffer_eq (by exact valid)]
  rfl

/-- One step of the append loop adds one node at the end. -/
theorem appendNodes_step (pool : IsPool h head (l₁ ++ [n])) {i count : Nat}
    (valid : h.ValidBuffer (bo.add i)) :
    appendNodes libc bo (count + 1) i h n =
      appendNodes libc bo count (i + 1)
        (h.addNode n (libc.node.choose h.nodes.live)
          { va := add64 (h.nodes.cell n).va (h.nodes.cell n).size,
            size := (h.buffer (bo.add i)).vaSize, parentBo := bo, bo := bo.add i })
        (libc.node.choose h.nodes.live) := by
  have fresh := libc.node.fresh h.nodes.live
  rw [appendNodes]
  unfold Store.malloc
  generalize libc.node.choose h.nodes.live = a at fresh
  have nLive := pool.live n (by simp)
  have aNe : a ≠ n := by rintro rfl; exact fresh nLive
  have last : (h.nodes.cell n).next = none := by simpa using pool.linked.next_eq
  have cells := append_cells
    { va := add64 (h.nodes.cell n).va (h.nodes.cell n).size,
      size := (h.buffer (bo.add i)).vaSize, parentBo := bo, bo := bo.add i } aNe last
  dsimp only at cells ⊢
  rw [Heap.loadBuffer_eq valid, ok_bind, Store.load_eq (Finset.mem_insert_of_mem nLive), ok_bind,
    Store.modify_eq (Finset.mem_insert_self a _), ok_bind,
    Store.modify_eq (Finset.mem_insert_of_mem nLive), ok_bind]
  rw [cells, Heap.modifyBuffer_eq (by exact valid)]
  rfl

end Placements

/-- The `va_size` of the fragments from index `i` on. -/
def Heap.fragmentSizes (h : Heap) (bo : BufPtr) (i count : Nat) : List Nat :=
  (List.range' i count).map fun j => (h.buffer (bo.add j)).vaSize

@[simp] theorem Heap.fragmentSizes_length (h : Heap) (bo : BufPtr) (i count : Nat) :
    (h.fragmentSizes bo i count).length = count := by
  simp [Heap.fragmentSizes]

/-- The append loop adds one contiguous range for each fragment. -/
theorem appendNodes_spec (libc : Libc) (bo : BufPtr) {head : Addr} (count : Nat) :
    ∀ {h : Heap} {l : List Addr} {n : Addr} (i : Nat), IsPool h head (l ++ [n]) →
      (∀ j < count, h.ValidBuffer (bo.add (i + j))) →
      ∃ h' news, appendNodes libc bo count i h n = .ok h' ∧
        IsPool h' head (l ++ n :: news) ∧ Grew h h' (l ++ [n]) news ∧
        h'.entries news =
          appendEntries bo i (h.fragmentSizes bo i count) (h.nodes.cell n).toPoolEntry := by
  induction count with
  | zero => intro h l n i pool _; exact ⟨h, [], rfl, pool, Grew.refl h _, rfl⟩
  | succ count ih =>
      intro h l n i pool valid
      have validHere : h.ValidBuffer (bo.add i) := valid 0 (by omega)
      have fresh := libc.node.fresh h.nodes.live
      have last : (h.nodes.cell n).next = none := by simpa using pool.linked.next_eq
      rw [appendNodes_step libc pool validHere]
      generalize libc.node.choose h.nodes.live = a at fresh
      generalize entry : PoolEntry.mk (add64 (h.nodes.cell n).va (h.nodes.cell n).size)
        (h.buffer (bo.add i)).vaSize bo (bo.add i) = e
      have pool₁ : IsPool (h.addNode n a e) head ((l ++ [n]) ++ [a]) := by
        simpa using pool.addNode fresh e
      have grew₁ : Grew h (h.addNode n a e) (l ++ [n]) [a] := by
        refine Grew.addNode fresh (by simp) ?_
        intro x isNext
        rw [last] at isNext
        exact absurd isNext (by simp)
      obtain ⟨h', news, run, pool', grew', entries⟩ := ih (i + 1) pool₁ (by
        intro j hj
        rw [grew₁.validBuffer]
        have := valid (j + 1) (by omega)
        rwa [show i + (j + 1) = i + 1 + j by omega] at this)
      have sizes : (h.addNode n a e).fragmentSizes bo (i + 1) count =
          h.fragmentSizes bo (i + 1) count := by
        refine List.map_congr_left fun j _ => ?_
        rw [grew₁.fields]
      rw [sizes, Heap.addNode_entry_new] at entries
      -- the later nodes belong to later fragments, so no two new nodes share one
      have bos : ∀ b ∈ news, ∃ j, i + 1 ≤ j ∧ (h'.nodes.cell b).bo = bo.add j := by
        intro b member
        have inMap : (h'.nodes.cell b).bo ∈ (h'.entries news).map PoolEntry.bo :=
          List.mem_map_of_mem (Heap.mem_entries.mpr ⟨b, member, rfl⟩)
        rw [entries, appendEntries_bos, List.mem_map] at inMap
        obtain ⟨j, inRange, same⟩ := inMap
        exact ⟨j, (List.mem_range'_1.mp inRange).1, same.symm⟩
      refine ⟨h', a :: news, run, by simpa using pool', ?_, ?_⟩
      · refine grew₁.trans grew' (by simp [or_assoc]) ?_
        intro x isNew b member same
        obtain ⟨j, later, boB⟩ := bos b member
        rw [List.mem_singleton.mp isNew, Heap.addNode_entry_new, boB, ← entry] at same
        have := BufPtr.add_inj.mp same
        omega
      · have aLive := pool₁.live a (by simp)
        rw [Heap.entries_cons, grew'.entry_old aLive, Heap.addNode_entry_new, entries]
        simp [Heap.fragmentSizes, List.range'_succ, appendEntries, ← entry]

/-! ## The walk -/

/-- From node `n` on, the walk of `compute_pool_alloc` turns the rest of the
list into its `place`. -/
theorem poolScan_spec (libc : Libc) {bo : BufPtr} {h : Heap} {head : Addr}
    (valid : ∀ i < (h.buffer bo).fragmentNumber, h.ValidBuffer (bo.add i))
    (positive : 0 < (h.buffer bo).fragmentNumber) (rest : List Addr) :
    ∀ (n : Addr) (pre : List Addr) (fuel : Nat), IsPool h head (pre ++ n :: rest) →
      rest.length < fuel →
      ∃ h' r₁ news r₂, rest = r₁ ++ r₂ ∧ poolScan libc bo fuel h (some n) = .ok h' ∧
        IsPool h' head (pre ++ n :: (r₁ ++ news ++ r₂)) ∧ Grew h h' (pre ++ n :: rest) news ∧
        h'.entries (n :: (r₁ ++ news ++ r₂)) = place bo (h.buffer bo)
          (h.fragmentSizes bo 0 (h.buffer bo).fragmentNumber) (h.entries (n :: rest)) := by
  have validBo : h.ValidBuffer bo := by simpa using valid 0 positive
  induction rest with
  | nil =>
      intro n pre fuel pool enough
      obtain ⟨fuel, rfl⟩ : ∃ f, fuel = f + 1 := ⟨fuel - 1, by omega⟩
      -- `n` is the last node: every fragment is appended
      have last : (h.nodes.cell n).next = none := by simpa using pool.linked.next_eq
      obtain ⟨h', news, run, pool', grew, entries⟩ :=
        appendNodes_spec libc bo (h.buffer bo).fragmentNumber 0 pool (by simpa using valid)
      have nLive := pool.live n (by simp)
      refine ⟨h', [], news, [], rfl, ?_, by simpa using pool', grew, ?_⟩
      · simp only [poolScan, Store.load_eq nLive, Heap.loadBuffer_eq validBo, ok_bind, last]
        exact run
      · rw [List.nil_append, List.append_nil, Heap.entries_cons, grew.entry_old nLive, entries]
        rfl
  | cons nx rest ih =>
      intro n pre fuel pool enough
      simp only [List.length_cons] at enough
      obtain ⟨fuel, rfl⟩ : ∃ f, fuel = f + 1 := ⟨fuel - 1, by omega⟩
      have next : (h.nodes.cell n).next = some nx := by simpa using pool.linked.next_eq
      have nLive := pool.live n (by simp)
      have nxLive := pool.live nx (by simp)
      by_cases fits : (h.buffer bo).fragmentNumber = 1 ∧ gapFits (h.buffer bo)
          (h.nodes.cell n).toPoolEntry (h.nodes.cell nx).toPoolEntry = true
      · -- one node is put between `n` and `nx`, and the walk ends
        have fresh := libc.node.fresh h.nodes.live
        have run := insertNode_eq libc pool validBo (h.buffer bo)
        generalize libc.node.choose h.nodes.live = a at fresh run
        generalize entry : PoolEntry.mk (add64 (h.nodes.cell n).va (h.nodes.cell n).size)
          (h.buffer bo).vaSize bo bo = e at run
        have grew : Grew h (h.addNode n a e) (pre ++ n :: nx :: rest) [a] := by
          refine Grew.addNode fresh (by simp) ?_
          intro x isNext
          obtain rfl : nx = x := by simpa [next] using isNext
          simp
        have kept : ∀ x ∈ pre ++ n :: nx :: rest, x ∉ [a] := by
          intro x member isNew
          exact fresh (List.mem_singleton.mp isNew ▸ pool.live x member)
        refine ⟨h.addNode n a e, [], [a], nx :: rest, rfl, ?_, pool.addNode fresh e, grew, ?_⟩
        · simp only [poolScan, Store.load_eq nLive, Heap.loadBuffer_eq validBo, ok_bind, next,
            if_pos fits.1, Store.load_eq nxLive, if_pos fits.2]
          exact run
        · have old : (h.addNode n a e).entries (nx :: rest) = h.entries (nx :: rest) := by
            refine Heap.entries_congr fun x member => grew.entry x (kept x ?_)
            simp at member ⊢
            tauto
          rw [List.nil_append, List.singleton_append, Heap.entries_cons, Heap.entries_cons, old,
            Heap.addNode_entry_new, grew.entry n (kept n (by simp)), ← entry]
          simp [place, fits]
      · -- the walk goes on from `nx`, with `n` among the nodes before it
        have pool' : IsPool h head ((pre ++ [n]) ++ nx :: rest) := by simpa using pool
        obtain ⟨h', r₁, news, r₂, split, run, poolAfter, grew, entries⟩ :=
          ih nx (pre ++ [n]) fuel pool' (by omega)
        refine ⟨h', nx :: r₁, news, r₂, by simp [split], ?_, by simpa using poolAfter,
          by simpa using grew, ?_⟩
        · simp only [poolScan, Store.load_eq nLive, Heap.loadBuffer_eq validBo, ok_bind, next]
          by_cases single : (h.buffer bo).fragmentNumber = 1
          · have miss : ¬ gapFits (h.buffer bo) (h.nodes.cell n).toPoolEntry
                (h.nodes.cell nx).toPoolEntry = true := fun fit => fits ⟨single, fit⟩
            simp only [if_pos single, Store.load_eq nxLive, ok_bind, if_neg miss]
            exact run
          · simp only [if_neg single]
            exact run
        · rw [Heap.entries_cons, grew.entry_old nLive, List.cons_append, List.cons_append, entries]
          simp only [Heap.entries_cons, place, if_neg fits]

/-- **Refinement of `place`.** `compute_pool_alloc` returns on every pool, and
the pool it leaves reads as `place` of the pool it found. -/
theorem computePoolAlloc_spec (libc : Libc) {h : Heap} {ctx : Addr} {bo : BufPtr}
    {as : List Addr} (ctxLive : ctx ∈ h.contexts.live)
    (pool : IsPool h (h.contexts.cell ctx).vmPool as)
    (valid : ∀ i < (h.buffer bo).fragmentNumber, h.ValidBuffer (bo.add i))
    (positive : 0 < (h.buffer bo).fragmentNumber) (page : (h.buffer bo).vaSize % 4096 = 0) :
    ∃ h' l₁ news l₂, as = l₁ ++ l₂ ∧ l₁ ≠ [] ∧ computePoolAlloc libc h ctx bo = .ok h' ∧
      IsPool h' (h.contexts.cell ctx).vmPool (l₁ ++ news ++ l₂) ∧ Grew h h' as news ∧
      h'.entries (l₁ ++ news ++ l₂) = place bo (h.buffer bo)
        (h.fragmentSizes bo 0 (h.buffer bo).fragmentNumber) (h.entries as) := by
  have validBo : h.ValidBuffer bo := by simpa using valid 0 positive
  cases as with
  | nil => exact absurd pool.head_eq (by simp)
  | cons n rest =>
      obtain rfl : n = (h.contexts.cell ctx).vmPool := by simpa using pool.head_eq
      have enough : rest.length < h.nodes.live.card := by
        have bound := Store.length_le_card pool.nodup pool.live
        simpa [Nat.succ_le_iff] using bound
      obtain ⟨h', r₁, news, r₂, split, run, pool', grew, entries⟩ :=
        poolScan_spec libc valid positive rest _ [] _ pool enough
      refine ⟨h', _ :: r₁, news, r₂, by simp [split], by simp, ?_, pool', grew, entries⟩
      simp only [computePoolAlloc, Heap.loadBuffer_eq validBo, ok_bind, page, ne_eq,
        not_true_eq_false, if_false, if_neg (Nat.pos_iff_ne_zero.mp positive),
        Store.load_eq ctxLive]
      exact run

/-- What the pool gained are the ranges of the new nodes. -/
theorem Grew.news_perm {h h' : Heap} {as news l₁ l₂ : List Addr} {pool fresh : List PoolEntry}
    (grew : Grew h h' as news) (split : as = l₁ ++ l₂) (live : ∀ a ∈ as, a ∈ h.nodes.live)
    (placed : h'.entries (l₁ ++ news ++ l₂) = pool) (gained : pool.Perm (h.entries as ++ fresh)) :
    (h'.entries news).Perm fresh := by
  have old : ∀ l : List Addr, (∀ a ∈ l, a ∈ as) → h'.entries l = h.entries l := by
    intro l inList
    exact Heap.entries_congr fun a member => grew.entry_old (live a (inList a member))
  have left := old l₁ fun a member => by simp [split, member]
  have right := old l₂ fun a member => by simp [split, member]
  rw [← placed, split] at gained
  simp only [Heap.entries_append, left, right, List.append_assoc] at gained
  -- bring the new ranges behind the old ones on both sides
  have behind : (h.entries l₁ ++ (h.entries l₂ ++ h'.entries news)).Perm
      (h.entries l₁ ++ (h.entries l₂ ++ fresh)) :=
    (List.Perm.append_left _ List.perm_append_comm).trans gained
  exact (List.perm_append_left_iff _).mp ((List.perm_append_left_iff _).mp behind)

end RadeonsiCompute
