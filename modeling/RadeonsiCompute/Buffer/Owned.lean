import RadeonsiCompute.Buffer.Fragments
import RadeonsiCompute.Pool.Grow
import RadeonsiCompute.Pool.Shrink

/-!
# Who owns the ranges of the pool

`PoolOwned` ties the pool list to the buffers the caller holds: every node
after the reserved one belongs to a fragment of a live buffer, every fragment
has a node, and node and fragment agree on address and size. It says nothing
about where the ranges lie, so it survives allocations that run past 2^64; the
layout of the ranges is `PoolLayout`. Allocation adds a buffer to the relation
and freeing takes one out.
-/

namespace RadeonsiCompute

open Lib

/-- `ctx->vm_pool`. -/
def Heap.vmPool (h : Heap) (ctx : Addr) : Addr := (h.contexts.cell ctx).vmPool

theorem Heap.vmPool_congr {h h' : Heap} (contexts : h'.contexts = h.contexts) (ctx : Addr) :
    h'.vmPool ctx = h.vmPool ctx := by
  unfold Heap.vmPool
  rw [contexts]

/-- The node over the reserved range, first in the pool. -/
def Heap.sentinel (h : Heap) (ctx : Addr) : PoolEntry :=
  (h.nodes.cell (h.vmPool ctx)).toPoolEntry

theorem Heap.sentinel_congr {h h' : Heap} {ctx : Addr} (contexts : h'.contexts = h.contexts)
    (entry : (h'.nodes.cell (h.vmPool ctx)).toPoolEntry =
      (h.nodes.cell (h.vmPool ctx)).toPoolEntry) : h'.sentinel ctx = h.sentinel ctx := by
  unfold Heap.sentinel
  rw [Heap.vmPool_congr contexts, entry]

/-- A pointer to the first fragment of an allocated buffer of the context. -/
structure LiveBuffer (h : Heap) (ctx : Addr) (b : BufPtr) : Prop where
  index : b.index = 0
  live : b.block ∈ h.buffers.live
  count : (h.buffers.cell b.block).count = (h.buffer b).fragmentNumber
  positive : 0 < (h.buffer b).fragmentNumber
  ctx : (h.buffer b).ctx = ctx

namespace LiveBuffer

variable {h h' : Heap} {ctx : Addr} {b b' : BufPtr}

/-- Two live buffers in one block are the same buffer. -/
theorem eq_of_block (live : LiveBuffer h ctx b) (live' : LiveBuffer h ctx b')
    (same : b.block = b'.block) : b = b' := by
  have index := live.index
  have index' := live'.index
  cases b; cases b'
  simp_all

/-- Every fragment is an element of the array. -/
theorem valid (live : LiveBuffer h ctx b) {i : Nat} (hi : i < (h.buffer b).fragmentNumber) :
    h.ValidBuffer (b.add i) := by
  refine ⟨live.live, ?_⟩
  simpa [live.count, live.index] using hi

/-- A heap with the same array, fragment number and owner has the same live buffer. -/
theorem transport (live : LiveBuffer h ctx b) (here : b.block ∈ h'.buffers.live)
    (count : (h'.buffers.cell b.block).count = (h.buffers.cell b.block).count)
    (number : (h'.buffer b).fragmentNumber = (h.buffer b).fragmentNumber)
    (owner : (h'.buffer b).ctx = (h.buffer b).ctx) : LiveBuffer h' ctx b where
  index := live.index
  live := here
  count := by rw [count, number]; exact live.count
  positive := by rw [number]; exact live.positive
  ctx := by rw [owner]; exact live.ctx

/-- Linking nodes into a pool writes only addresses into the buffers. -/
theorem grew {as news : List Addr} (live : LiveBuffer h ctx b) (grew : Grew h h' as news) :
    LiveBuffer h' ctx b :=
  live.transport (by rw [grew.buffersLive]; exact live.live) (grew.count b.block)
    (by rw [grew.fields]) (by rw [grew.fields])

end LiveBuffer

structure PoolOwned (h : Heap) (ctx : Addr) (bufs : Finset BufPtr) (rest : List Addr) :
    Prop where
  ctxLive : ctx ∈ h.contexts.live
  pool : IsPool h (h.vmPool ctx) (h.vmPool ctx :: rest)
  foreign : (h.sentinel ctx).parentBo ∉ bufs
  buffers : ∀ b ∈ bufs, LiveBuffer h ctx b
  owned : ∀ e ∈ h.entries rest, e.parentBo ∈ bufs ∧
    ∃ i < (h.buffer e.parentBo).fragmentNumber, e.bo = e.parentBo.add i
  listed : ∀ b ∈ bufs, ∀ i < (h.buffer b).fragmentNumber, ∃ e ∈ h.entries rest, e.bo = b.add i
  distinct : ((h.entries rest).map PoolEntry.bo).Nodup
  agree : ∀ e ∈ h.entries rest,
    e.va = (h.buffer e.bo).va ∧ e.size = (h.buffer e.bo).vaSize

/-- Where the ranges of a pool lie, the reserved one first. -/
structure PoolLayout (sentinel : PoolEntry) (ranges : List PoolEntry) : Prop where
  base : sentinel.va = 0
  ordered : PoolOrdered (sentinel :: ranges)
  positive : ∀ e ∈ sentinel :: ranges, 0 < e.size
  below : Below (sentinel :: ranges)
  pages : 4096 ∣ sentinel.size → ∀ e ∈ sentinel :: ranges, 4096 ∣ e.va ∧ 4096 ∣ e.size

/-- Every range but the reserved one starts above zero. -/
theorem PoolLayout.va_pos {sentinel e : PoolEntry} {ranges : List PoolEntry}
    (layout : PoolLayout sentinel ranges) (member : e ∈ ranges) : 0 < e.va := by
  have before := (List.pairwise_cons.mp layout.ordered).1 e member
  have positive := layout.positive sentinel List.mem_cons_self
  unfold Before at before
  omega

/-- Layout survives dropping ranges. -/
theorem PoolLayout.sublist {sentinel : PoolEntry} {ranges ranges' : List PoolEntry}
    (layout : PoolLayout sentinel ranges) (sub : ranges'.Sublist ranges) :
    PoolLayout sentinel ranges' where
  base := layout.base
  ordered := layout.ordered.sublist (sub.cons_cons sentinel)
  positive e member := layout.positive e ((sub.cons_cons sentinel).subset member)
  below e member := layout.below e ((sub.cons_cons sentinel).subset member)
  pages page e member := layout.pages page e ((sub.cons_cons sentinel).subset member)

/-- The new nodes are one for each fragment of `bo`. -/
structure OnePerFragment (h h' : Heap) (bo : BufPtr) (news : List Addr) : Prop where
  parent : ∀ e ∈ h'.entries news, e.parentBo = bo
  fragment : ∀ e ∈ h'.entries news, ∃ i < (h.buffer bo).fragmentNumber,
    e.bo = bo.add i ∧ e.size = (h.buffer (bo.add i)).vaSize
  bos : ((h'.entries news).map PoolEntry.bo).Perm
    ((List.range' 0 (h.buffer bo).fragmentNumber).map bo.add)

namespace OnePerFragment

variable {h h' : Heap} {bo : BufPtr} {as news l₁ l₂ : List Addr}

/-- The nodes `place` adds. -/
theorem placed (grew : Grew h h' as news) (split : as = l₁ ++ l₂) (nonempty : l₁ ≠ [])
    (live : ∀ a ∈ as, a ∈ h.nodes.live)
    (placed : h'.entries (l₁ ++ news ++ l₂) = place bo (h.buffer bo)
      (h.fragmentSizes bo 0 (h.buffer bo).fragmentNumber) (h.entries as)) :
    OnePerFragment h h' bo news := by
  have some : h.entries as ≠ [] := by
    obtain ⟨head, tail, rfl⟩ := List.exists_cons_of_ne_nil nonempty
    simp [split]
  obtain ⟨fresh, perm, bos, sizes, parents⟩ := @place_perm bo (h.buffer bo)
    (h.fragmentSizes bo 0 (h.buffer bo).fragmentNumber) (h.entries as) some (by
      intro single
      simp [Heap.fragmentSizes, single])
  have newsPerm : (h'.entries news).Perm fresh := grew.news_perm split live placed perm
  have count : fresh.length = (h.buffer bo).fragmentNumber := by
    simpa using congrArg List.length bos
  constructor
  · intro e member
    exact parents e (newsPerm.mem_iff.mp member)
  · intro e member
    obtain ⟨j, hj, rfl⟩ := List.mem_iff_getElem.mp (newsPerm.mem_iff.mp member)
    have bosJ := congrArg (fun l => l[j]?) bos
    have sizesJ := congrArg (fun l => l[j]?) sizes
    have inRange : j < (h.buffer bo).fragmentNumber := by omega
    refine ⟨j, inRange, ?_, ?_⟩
    · simpa [hj, inRange] using bosJ
    · simpa [Heap.fragmentSizes, hj, inRange] using sizesJ
  · have same := newsPerm.map PoolEntry.bo
    rw [bos] at same
    simpa using same

/-- Every fragment has a new node. -/
theorem listed (new : OnePerFragment h h' bo news) {i : Nat}
    (hi : i < (h.buffer bo).fragmentNumber) : ∃ e ∈ h'.entries news, e.bo = bo.add i := by
  have inMap : bo.add i ∈ (h'.entries news).map PoolEntry.bo := by
    rw [new.bos.mem_iff]
    exact List.mem_map_of_mem (by simpa using hi)
  obtain ⟨e, member, same⟩ := List.mem_map.mp inMap
  exact ⟨e, member, same⟩

/-- All of them point into the array of `bo`. -/
theorem block (new : OnePerFragment h h' bo news) {a : Addr} (isNew : a ∈ news) :
    (h'.nodes.cell a).bo.block = bo.block := by
  obtain ⟨i, -, same, -⟩ := new.fragment _ (Heap.mem_entries.mpr ⟨a, isNew, rfl⟩)
  rw [same, BufPtr.add_block]

/-- Buffers in other arrays keep their contents. -/
theorem otherBuffer (new : OnePerFragment h h' bo news) (grew : Grew h h' as news) {p : BufPtr}
    (other : p.block ≠ bo.block) : h'.buffer p = h.buffer p := by
  refine grew.otherBuffer p fun a isNew same => ?_
  exact other (same ▸ new.block isNew)

end OnePerFragment

namespace PoolOwned

variable {h h' : Heap} {ctx : Addr} {bufs : Finset BufPtr} {rest : List Addr}

/-- Two live buffers in one block are the same buffer. -/
theorem eq_of_block (inv : PoolOwned h ctx bufs rest) {b b' : BufPtr} (hb : b ∈ bufs)
    (hb' : b' ∈ bufs) (same : b.block = b'.block) : b = b' :=
  (inv.buffers b hb).eq_of_block (inv.buffers b' hb') same

theorem validBuffer (inv : PoolOwned h ctx bufs rest) {b : BufPtr} (hb : b ∈ bufs) {i : Nat}
    (hi : i < (h.buffer b).fragmentNumber) : h.ValidBuffer (b.add i) :=
  (inv.buffers b hb).valid hi

theorem validBuffer_self (inv : PoolOwned h ctx bufs rest) {b : BufPtr} (hb : b ∈ bufs) :
    h.ValidBuffer b := by
  simpa using inv.validBuffer hb (inv.buffers b hb).positive

/-- The owner and the fragment of a node are in one block. -/
theorem bo_block (inv : PoolOwned h ctx bufs rest) {e : PoolEntry} (member : e ∈ h.entries rest) :
    e.bo.block = e.parentBo.block := by
  obtain ⟨-, i, -, same⟩ := inv.owned e member
  rw [same, BufPtr.add_block]

/-- The relation is about the nodes, the context and the arrays it names. -/
theorem transport (inv : PoolOwned h ctx bufs rest) (ctxLive : ctx ∈ h'.contexts.live)
    (ctxCell : h'.contexts.cell ctx = h.contexts.cell ctx)
    (nodes : ∀ a ∈ h.vmPool ctx :: rest, a ∈ h'.nodes.live ∧ h'.nodes.cell a = h.nodes.cell a)
    (live : ∀ b ∈ bufs, b.block ∈ h'.buffers.live)
    (count : ∀ b ∈ bufs, (h'.buffers.cell b.block).count = (h.buffers.cell b.block).count)
    (buffer : ∀ b ∈ bufs, ∀ p : BufPtr, p.block = b.block → h'.buffer p = h.buffer p) :
    PoolOwned h' ctx bufs rest := by
  have vmPool : h'.vmPool ctx = h.vmPool ctx := congrArg ComputeContext.vmPool ctxCell
  have entries : h'.entries rest = h.entries rest := Heap.entries_congr fun a member => by
    rw [(nodes a (List.mem_cons_of_mem _ member)).2]
  have sentinel : h'.sentinel ctx = h.sentinel ctx := by
    rw [Heap.sentinel, vmPool, (nodes _ List.mem_cons_self).2]
    rfl
  refine ⟨ctxLive, ?_, ?_, ?_, ?_, ?_, ?_, ?_⟩
  · have pool := inv.pool
    rw [vmPool]
    refine ⟨pool.head_eq, pool.linked.congr ?_ ?_, fun a member => (nodes a member).1, pool.nodup⟩
    · intro a member
      rw [(nodes a member).2]
    · intro a member
      rw [(nodes a member).2]
  · rw [sentinel]; exact inv.foreign
  · intro b hb
    have same := buffer b hb b rfl
    exact (inv.buffers b hb).transport (live b hb) (count b hb) (by rw [same]) (by rw [same])
  · intro e member
    rw [entries] at member
    have old := inv.owned e member
    rw [buffer e.parentBo old.1 e.parentBo rfl]
    exact old
  · intro b hb i hi
    rw [buffer b hb b rfl] at hi
    rw [entries]
    exact inv.listed b hb i hi
  · rw [entries]; exact inv.distinct
  · intro e member
    rw [entries] at member
    rw [buffer e.parentBo (inv.owned e member).1 e.bo (inv.bo_block member)]
    exact inv.agree e member

/-- Changes to the blocks of other buffers are not seen. -/
theorem frame (inv : PoolOwned h ctx bufs rest) (nodes : h'.nodes = h.nodes)
    (contexts : h'.contexts = h.contexts)
    (live : ∀ b ∈ bufs, b.block ∈ h'.buffers.live)
    (count : ∀ b ∈ bufs, (h'.buffers.cell b.block).count = (h.buffers.cell b.block).count)
    (buffer : ∀ b ∈ bufs, ∀ p : BufPtr, p.block = b.block → h'.buffer p = h.buffer p) :
    PoolOwned h' ctx bufs rest := by
  apply inv.transport _ _ _ live count buffer
  · rw [contexts]; exact inv.ctxLive
  · rw [contexts]
  · intro a member
    rw [nodes]
    exact ⟨inv.pool.live a member, rfl⟩

/-- A new array does not disturb the buffers that were there. -/
theorem newBuffer (inv : PoolOwned h ctx bufs rest) {bo : BufPtr} {handles : List Nat}
    {wholeSize domain alignment : Nat}
    (new : NewBuffer ctx wholeSize domain alignment h h' bo handles) :
    PoolOwned h' ctx bufs rest := by
  have apart : ∀ b ∈ bufs, b.block ≠ bo.block := by
    intro b hb same
    exact new.fresh (same ▸ (inv.buffers b hb).live)
  refine inv.frame new.nodes new.contexts ?_ ?_ ?_
  · intro b hb
    rw [new.buffersLive]
    exact Finset.mem_insert_of_mem (inv.buffers b hb).live
  · intro b hb
    exact new.otherCount _ (apart b hb)
  · intro b hb p same
    refine new.other p ?_
    rw [same]
    exact apart b hb

/-! ## Freeing -/

/-- `compute_pool_free` of a live buffer takes it out of the relation. -/
theorem poolFree (inv : PoolOwned h ctx bufs rest) {bo : BufPtr} (hbo : bo ∈ bufs) :
    ∃ h' rest', computePoolFree h ctx bo = .ok h' ∧
      PoolOwned h' ctx (bufs.erase bo) rest' ∧
      Shrank h h' (h.vmPool ctx :: rest) (h.nodesOf bo rest) ∧
      h'.sentinel ctx = h.sentinel ctx ∧ h'.entries rest' = release bo (h.entries rest) ∧
      ∀ a ∈ rest', a ∈ rest := by
  have foreign : (h.nodes.cell (h.vmPool ctx)).parentBo ≠ bo := by
    intro same
    exact inv.foreign (same ▸ hbo)
  have owned : h.nodesOf bo rest ≠ [] := by
    obtain ⟨e, member, first⟩ := inv.listed bo hbo 0 (inv.buffers bo hbo).positive
    obtain ⟨a, inRest, rfl⟩ := Heap.mem_entries.mp member
    have parentIn := (inv.owned _ member).1
    have parent : (h.nodes.cell a).parentBo = bo := by
      refine inv.eq_of_block parentIn hbo ?_
      rw [← inv.bo_block member, first, BufPtr.add_block]
    exact List.ne_nil_of_mem (List.mem_filter.mpr ⟨inRest, by simpa using parent⟩)
  obtain ⟨h', run, pool', shrank⟩ :=
    computePoolFree_spec inv.ctxLive inv.pool foreign owned
  have entries : ∀ as, h'.entries as = h.entries as := fun as =>
    Heap.entries_congr fun a _ => shrank.entry a
  have sentinel : h'.sentinel ctx = h.sentinel ctx :=
    Heap.sentinel_congr shrank.contexts (shrank.entry _)
  have left : h'.entries (h.nodesNotOf bo rest) = release bo (h.entries rest) := by
    rw [entries, Heap.entries_nodesNotOf]
  refine ⟨h', h.nodesNotOf bo rest, run, ⟨?_, ?_, ?_, ?_, ?_, ?_, ?_, ?_⟩, shrank, sentinel, left,
    fun _ => List.mem_of_mem_filter⟩
  · rw [shrank.contexts]; exact inv.ctxLive
  · rw [Heap.vmPool_congr shrank.contexts]; exact pool'
  · rw [sentinel]
    exact fun member => inv.foreign (Finset.mem_of_mem_erase member)
  · intro b hb
    have old := inv.buffers b (Finset.mem_of_mem_erase hb)
    exact old.transport (by rw [shrank.buffers]; exact old.live) (by rw [shrank.buffers])
      (by rw [shrank.buffer]) (by rw [shrank.buffer])
  · intro e member
    rw [left, release, List.mem_filter] at member
    obtain ⟨parentIn, i, hi, same⟩ := inv.owned e member.1
    rw [shrank.buffer]
    exact ⟨Finset.mem_erase.mpr ⟨by simpa using member.2, parentIn⟩, i, hi, same⟩
  · intro b hb i hi
    rw [shrank.buffer] at hi
    obtain ⟨e, member, same⟩ := inv.listed b (Finset.mem_of_mem_erase hb) i hi
    have parent : e.parentBo = b := by
      refine inv.eq_of_block (inv.owned e member).1 (Finset.mem_of_mem_erase hb) ?_
      rw [← inv.bo_block member, same, BufPtr.add_block]
    refine ⟨e, ?_, same⟩
    rw [left, release, List.mem_filter]
    refine ⟨member, ?_⟩
    rw [parent]
    simpa using Finset.ne_of_mem_erase hb
  · rw [left]
    exact (List.filter_sublist.map PoolEntry.bo).nodup inv.distinct
  · intro e member
    rw [left, release, List.mem_filter] at member
    rw [shrank.buffer]
    exact inv.agree e member.1

/-! ## Allocating -/

/-- The pool after the nodes of a new buffer are linked in between `rest₁` and `rest₂`. -/
theorem grow {rest₁ rest₂ news : List Addr} {bo : BufPtr}
    (inv : PoolOwned h ctx bufs (rest₁ ++ rest₂)) (live : LiveBuffer h ctx bo) (new : bo ∉ bufs)
    (foreign : (h.sentinel ctx).parentBo ≠ bo)
    (grew : Grew h h' (h.vmPool ctx :: (rest₁ ++ rest₂)) news)
    (pool : IsPool h' (h.vmPool ctx) (h.vmPool ctx :: (rest₁ ++ news ++ rest₂)))
    (one : OnePerFragment h h' bo news) :
    PoolOwned h' ctx (insert bo bufs) (rest₁ ++ news ++ rest₂) := by
  have apart : ∀ b ∈ bufs, b.block ≠ bo.block := by
    intro b hb same
    exact new ((inv.buffers b hb).eq_of_block live same ▸ hb)
  have number : ∀ p, (h'.buffer p).fragmentNumber = (h.buffer p).fragmentNumber := fun p => by
    rw [grew.fields p]
  have left : h'.entries rest₁ = h.entries rest₁ := Heap.entries_congr fun a member =>
    grew.entry_old (inv.pool.live a (by simp [member]))
  have right : h'.entries rest₂ = h.entries rest₂ := Heap.entries_congr fun a member =>
    grew.entry_old (inv.pool.live a (by simp [member]))
  have perm : (h'.entries (rest₁ ++ news ++ rest₂)).Perm
      (h.entries (rest₁ ++ rest₂) ++ h'.entries news) := by
    simp only [Heap.entries_append, left, right, List.append_assoc]
    exact List.Perm.append_left _ List.perm_append_comm
  have members : ∀ e, e ∈ h'.entries (rest₁ ++ news ++ rest₂) ↔
      e ∈ h.entries (rest₁ ++ rest₂) ∨ e ∈ h'.entries news := by
    intro e
    rw [perm.mem_iff, List.mem_append]
  refine ⟨?_, ?_, ?_, ?_, ?_, ?_, ?_, ?_⟩
  · rw [grew.contexts]; exact inv.ctxLive
  · rw [Heap.vmPool_congr grew.contexts]; exact pool
  · have old := grew.entry_old (inv.pool.live _ List.mem_cons_self)
    rw [Heap.sentinel_congr grew.contexts old, Finset.mem_insert, not_or]
    exact ⟨foreign, inv.foreign⟩
  · intro b hb
    have old : LiveBuffer h ctx b := by
      rcases Finset.mem_insert.mp hb with rfl | inOld
      · exact live
      · exact inv.buffers b inOld
    exact old.grew grew
  · intro e member
    rw [number]
    rcases (members e).mp member with old | isNew
    · obtain ⟨parentIn, i, hi, same⟩ := inv.owned e old
      exact ⟨Finset.mem_insert_of_mem parentIn, i, hi, same⟩
    · obtain ⟨i, hi, same, -⟩ := one.fragment e isNew
      rw [one.parent e isNew]
      exact ⟨Finset.mem_insert_self _ _, i, hi, same⟩
  · intro b hb i hi
    rw [number] at hi
    rcases Finset.mem_insert.mp hb with rfl | inOld
    · obtain ⟨e, isNew, same⟩ := one.listed hi
      exact ⟨e, (members e).mpr (.inr isNew), same⟩
    · obtain ⟨e, old, same⟩ := inv.listed b inOld i hi
      exact ⟨e, (members e).mpr (.inl old), same⟩
  · have bos := perm.map PoolEntry.bo
    rw [List.map_append] at bos
    rw [(bos.trans (one.bos.append_left _)).nodup_iff]
    refine List.Nodup.append inv.distinct ?_ ?_
    · exact List.Nodup.map (fun i j => BufPtr.add_inj.mp) List.nodup_range'
    · intro p inOld inNew
      obtain ⟨e, member, rfl⟩ := List.mem_map.mp inOld
      obtain ⟨j, -, same⟩ := List.mem_map.mp inNew
      refine apart e.parentBo (inv.owned e member).1 ?_
      rw [← inv.bo_block member, ← same, BufPtr.add_block]
  · intro e member
    rcases (members e).mp member with old | isNew
    · rw [one.otherBuffer grew]
      · exact inv.agree e old
      · rw [inv.bo_block old]
        exact apart _ (inv.owned e old).1
    · obtain ⟨i, -, same, size⟩ := one.fragment e isNew
      obtain ⟨a, inNews, rfl⟩ := Heap.mem_entries.mp isNew
      refine ⟨(grew.va a inNews).symm, ?_⟩
      rw [size, same, grew.fields]

/-- `compute_pool_alloc` of a new buffer adds it to the relation. -/
theorem poolAlloc (inv : PoolOwned h ctx bufs rest) (libc : Libc) {bo : BufPtr}
    (live : LiveBuffer h ctx bo) (new : bo ∉ bufs) (foreign : (h.sentinel ctx).parentBo ≠ bo)
    (page : (h.buffer bo).vaSize % 4096 = 0) :
    ∃ h' rest' news, computePoolAlloc libc h ctx bo = .ok h' ∧
      PoolOwned h' ctx (insert bo bufs) rest' ∧ Grew h h' (h.vmPool ctx :: rest) news ∧
      (∀ p : BufPtr, p.block ≠ bo.block → h'.buffer p = h.buffer p) ∧
      h'.sentinel ctx = h.sentinel ctx ∧
      h'.sentinel ctx :: h'.entries rest' = place bo (h.buffer bo)
        (h.fragmentSizes bo 0 (h.buffer bo).fragmentNumber)
        (h.sentinel ctx :: h.entries rest) ∧ ∀ a ∈ rest', a ∈ rest ∨ a ∈ news := by
  obtain ⟨h', l₁, news, l₂, split, nonempty, run, pool', grew, placed⟩ :=
    computePoolAlloc_spec libc inv.ctxLive inv.pool (fun _ => live.valid) live.positive page
  have one := OnePerFragment.placed grew split nonempty inv.pool.live placed
  obtain ⟨head, r₁, rfl⟩ := List.exists_cons_of_ne_nil nonempty
  obtain ⟨rfl, rfl⟩ : h.vmPool ctx = head ∧ rest = r₁ ++ l₂ := by simpa using split
  have sentinel : h'.sentinel ctx = h.sentinel ctx :=
    Heap.sentinel_congr grew.contexts (grew.entry_old (inv.pool.live _ List.mem_cons_self))
  refine ⟨h', r₁ ++ news ++ l₂, news, run, inv.grow live new foreign grew pool' one, grew,
    fun p => one.otherBuffer grew, sentinel, ?_, ?_⟩
  · unfold Heap.sentinel
    rw [Heap.vmPool_congr grew.contexts]
    simpa using placed
  · intro a member
    simp only [List.mem_append] at member ⊢
    tauto

end PoolOwned

end RadeonsiCompute
