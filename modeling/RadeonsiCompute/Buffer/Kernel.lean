import RadeonsiCompute.Buffer.Flat

/-!
# The pool and the driver's page tables

A driver that keeps its promises: `GEM_CREATE` opens a new handle on an object
of whole pages, `RADEON_VA_MAP` maps an object unless the range overlaps a
mapping, and `GEM_CLOSE` drops a handle with its mapping. `KernelAgrees` says
that this driver and the pool describe the same memory. Since
`compute_free_gpu_buffer` closes one handle, it is kept by the release of a
buffer with one fragment, and lost by the release of a larger one.
-/

namespace RadeonsiCompute

open Lib

/-- An object mapped at a VA range. -/
structure Mapping where
  handle : Nat
  va : Nat
  size : Nat
  deriving DecidableEq, Repr

/-- The mapping shares an address with the range. -/
def Mapping.Overlaps (m : Mapping) (va size : Nat) : Prop :=
  m.va < va + size ∧ va < m.va + m.size

instance (m : Mapping) (va size : Nat) : Decidable (m.Overlaps va size) :=
  inferInstanceAs (Decidable (_ ∧ _))

/-- What the driver knows: the open handles, the size of their objects, and
what is mapped. -/
structure Kernel where
  handles : Finset Nat
  objectSize : Nat → Nat
  mappings : Finset Mapping

/-- The mapping a request asks for. -/
def Kernel.grant (k : Kernel) (va : GemVa) : Mapping :=
  { handle := va.handle, va := va.offset, size := k.objectSize va.handle }

/-- The bytes of the object a request creates: whole pages. -/
def objectBytes (args : GemCreate) : Nat := (args.size + 4095) / 4096 * 4096

/-- A new object behind `handle`. -/
def Kernel.create (k : Kernel) (handle : Nat) (args : GemCreate) : Kernel :=
  { k with
    handles := insert handle k.handles
    objectSize := Function.update k.objectSize handle (objectBytes args) }

/-- A driver that picks new handles with `fresh`. -/
def kernelDrm (fresh : Allocator) : Drm Kernel where
  gemCreate _ args k :=
    let handle := fresh.choose k.handles
    (some handle,
      { k with
        handles := insert handle k.handles
        objectSize := Function.update k.objectSize handle (objectBytes args) })
  gemVa _ va k :=
    if va.handle ∉ k.handles then ((-2, radeonVaResultError), k)
    else if ∃ m ∈ k.mappings, m.Overlaps va.offset (k.objectSize va.handle) then
      ((0, radeonVaResultVaExist), k)
    else ((0, radeonVaResultOk), { k with mappings := insert (k.grant va) k.mappings })
  gemClose _ handle k :=
    { k with
      handles := k.handles.erase handle
      mappings := k.mappings.filter fun m => m.handle ≠ handle }

/-- A driver nobody has talked to. -/
def Kernel.Unused (k : Kernel) : Prop := k.handles = ∅ ∧ k.mappings = ∅

/-- The open handles are those of the fragments held, and the mapped ranges are
those of the pool without the reserved one. -/
structure KernelAgrees (k : Kernel) (h : Heap) (ctx : Addr) (held : Finset BufPtr) : Prop where
  handles : ∀ x, x ∈ k.handles ↔ ∃ p ∈ h.fragmentsOf held, (h.buffer p).handle = x
  ranges : ∀ va size, (∃ m ∈ k.mappings, m.va = va ∧ m.size = size) ↔
    ∃ a ∈ (h.poolNodes ctx).tail, (h.nodes.cell a).va = va ∧ (h.nodes.cell a).size = size

/-! ## Requests -/

section Requests

variable {fresh : Allocator} {fd : Nat} {k k' : Kernel}

/-- Creating objects opens new handles on them and maps nothing. -/
structure Opened (k k' : Kernel) (args : List GemCreate) (opened : List Nat) : Prop where
  nodup : opened.Nodup
  new : ∀ x ∈ opened, x ∉ k.handles
  handles : ∀ x, x ∈ k'.handles ↔ x ∈ k.handles ∨ x ∈ opened
  mappings : k'.mappings = k.mappings
  sizes : opened.map k'.objectSize = args.map objectBytes
  otherSize : ∀ x, x ∉ opened → k'.objectSize x = k.objectSize x

/-- One more object, on top of those created after it. -/
theorem Opened.cons {a b c : Kernel} {args : GemCreate} {rest : List GemCreate} {handle : Nat}
    {handles : List Nat} (new : handle ∉ a.handles) (created : b = a.create handle args)
    (later : Opened b c rest handles) : Opened a c (args :: rest) (handle :: handles) := by
  subst created
  have notLater : handle ∉ handles := fun member =>
    later.new handle member (Finset.mem_insert_self _ _)
  constructor
  · exact List.nodup_cons.mpr ⟨notLater, later.nodup⟩
  · intro x member
    rcases List.mem_cons.mp member with rfl | inRest
    · exact new
    · exact fun old => later.new x inRest (Finset.mem_insert_of_mem old)
  · intro x
    rw [later.handles]
    simp only [Kernel.create, Finset.mem_insert, List.mem_cons]
    tauto
  · exact later.mappings
  · rw [List.map_cons, List.map_cons, later.sizes, later.otherSize handle notLater]
    simp [Kernel.create]
  · intro x notHere
    simp only [List.mem_cons, not_or] at notHere
    rw [later.otherSize x notHere.2]
    simp [Kernel.create, notHere.1]

theorem Creates.opened {args : List GemCreate} {handles : List Nat}
    (creates : Creates (kernelDrm fresh) fd k args handles k') : Opened k k' args handles := by
  induction creates with
  | nil => constructor <;> simp
  | @cons k k₁ k₂ args handle rest handles create _ ih =>
      have reply : (some (fresh.choose k.handles), k.create (fresh.choose k.handles) args) =
          (some handle, k₁) := create
      obtain ⟨chosen, created⟩ := Prod.mk.inj reply
      obtain rfl := Option.some.inj chosen
      exact Opened.cons (fresh.fresh k.handles) created.symm ih

theorem gemVa_refused {va : GemVa} {answer : Int × Nat}
    (reply : (kernelDrm fresh).gemVa fd va k = (answer, k')) (refused : MapRefused answer) :
    va.handle ∉ k.handles ∨
      ∃ m ∈ k.mappings, m.Overlaps va.offset (k.objectSize va.handle) := by
  by_contra granted
  simp only [not_or, Decidable.not_not] at granted
  have ok : (kernelDrm fresh).gemVa fd va k =
      ((0, radeonVaResultOk), { k with mappings := insert (k.grant va) k.mappings }) := by
    simp only [kernelDrm, if_neg (not_not_intro granted.1), if_neg granted.2]
  rw [ok] at reply
  obtain ⟨rfl, -⟩ := Prod.mk.inj reply
  exact absurd refused (by decide)

theorem gemVa_granted {va : GemVa} {answer : Int × Nat}
    (reply : (kernelDrm fresh).gemVa fd va k = (answer, k')) (granted : ¬ MapRefused answer) :
    k' = { k with mappings := insert (k.grant va) k.mappings } := by
  simp only [kernelDrm] at reply
  split at reply
  · obtain ⟨rfl, -⟩ := Prod.mk.inj reply
    exact absurd (by decide : MapRefused (-2, radeonVaResultError)) granted
  · split at reply
    · obtain ⟨rfl, -⟩ := Prod.mk.inj reply
      exact absurd (by decide : MapRefused (0, radeonVaResultVaExist)) granted
    · exact (Prod.mk.inj reply).2.symm

/-- Mapping adds what was asked for. -/
theorem Maps.mapped {requests : List GemVa} (maps : Maps (kernelDrm fresh) fd k requests k') :
    k'.handles = k.handles ∧ k'.objectSize = k.objectSize ∧
      ∀ m, m ∈ k'.mappings ↔ m ∈ k.mappings ∨ m ∈ requests.map k.grant := by
  induction maps with
  | nil => simp
  | @cons k k₁ k₂ va rest answer reply granted _ ih =>
      obtain rfl := gemVa_granted reply granted
      obtain ⟨handles, sizes, mappings⟩ := ih
      refine ⟨handles, sizes, fun m => ?_⟩
      have same : rest.map ({ k with mappings := insert (k.grant va) k.mappings } : Kernel).grant =
          rest.map k.grant := rfl
      rw [mappings, same, List.map_cons, List.mem_cons, Finset.mem_insert]
      tauto

/-- Requests for open handles that overlap nothing are all granted. -/
theorem MapStops.absurd {requests : List GemVa}
    (stops : MapStops (kernelDrm fresh) fd k requests k')
    (isOpen : ∀ va ∈ requests, va.handle ∈ k.handles)
    (apart : ∀ m ∈ k.mappings, ∀ m' ∈ requests.map k.grant, ¬ m.Overlaps m'.va m'.size)
    (distinct : (requests.map k.grant).Pairwise fun m m' => ¬ m.Overlaps m'.va m'.size) :
    False := by
  obtain ⟨granted, va, later, k₁, answer, rfl, maps, reply, refused⟩ := stops
  obtain ⟨handles, sizes, mappings⟩ := maps.mapped
  rcases gemVa_refused reply refused with closed | ⟨m, member, overlaps⟩
  · rw [handles] at closed
    exact closed (isOpen va (by simp))
  · rw [sizes] at overlaps
    rcases (mappings m).mp member with old | earlier
    · exact apart m old (k.grant va) (by simp) overlaps
    · rw [List.map_append, List.pairwise_append] at distinct
      exact distinct.2.2 m earlier (k.grant va) (by simp) overlaps

/-- The driver holds exactly the given mappings, each of a handle of its own. -/
structure Kernel.Holds (k : Kernel) (ms : List Mapping) : Prop where
  handles : ∀ x, x ∈ k.handles ↔ x ∈ ms.map Mapping.handle
  distinct : (ms.map Mapping.handle).Nodup
  mappings : ∀ m, m ∈ k.mappings ↔ m ∈ ms

theorem Kernel.Unused.holds (unused : k.Unused) : k.Holds [] where
  handles := by simp [unused.1]
  distinct := List.nodup_nil
  mappings := by simp [unused.2]

theorem Kernel.Holds.perm {ms ms' : List Mapping} (holds : k.Holds ms) (perm : ms.Perm ms') :
    k.Holds ms' where
  handles x := by rw [holds.handles, (perm.map _).mem_iff]
  distinct := (perm.map _).nodup_iff.mp holds.distinct
  mappings m := by rw [holds.mappings, perm.mem_iff]

/-- Closing a handle drops its mapping. -/
theorem Kernel.Holds.close {ms : List Mapping} (holds : k.Holds ms) (x : Nat) :
    ((kernelDrm fresh).gemClose fd x k).Holds (ms.filter fun m => m.handle ≠ x) where
  handles y := by
    simp only [kernelDrm, Finset.mem_erase, holds.handles, List.mem_map, List.mem_filter]
    constructor
    · rintro ⟨other, m, member, rfl⟩
      exact ⟨m, ⟨member, by simpa using other⟩, rfl⟩
    · rintro ⟨m, ⟨member, other⟩, rfl⟩
      exact ⟨by simpa using other, m, member, rfl⟩
  distinct := (List.filter_sublist.map _).nodup holds.distinct
  mappings m := by
    simp only [kernelDrm, Finset.mem_filter, holds.mappings, List.mem_filter,
      decide_eq_true_eq]

/-- Creating objects and mapping each of them adds the mappings. -/
theorem Kernel.Holds.extend {k₁ : Kernel} {ms : List Mapping} {args : List GemCreate}
    {opened : List Nat} {requests : List GemVa} (holds : k.Holds ms)
    (opens : Opened k k₁ args opened) (maps : Maps (kernelDrm fresh) fd k₁ requests k')
    (asked : requests.map GemVa.handle = opened) : k'.Holds (ms ++ requests.map k₁.grant) := by
  obtain ⟨handles, -, mappings⟩ := maps.mapped
  have granted : (requests.map k₁.grant).map Mapping.handle = opened := by
    rw [← asked, List.map_map]
    rfl
  constructor
  · intro x
    rw [handles, opens.handles, holds.handles, List.map_append, granted, List.mem_append]
  · rw [List.map_append, granted]
    refine List.Nodup.append holds.distinct opens.nodup ?_
    intro x old isNew
    exact opens.new x isNew ((holds.handles x).mpr old)
  · intro m
    rw [mappings, opens.mappings, holds.mappings, List.mem_append]

end Requests

/-! ## The invariant -/

/-- The mapping that a pool range stands for. -/
def Heap.mapping (h : Heap) (e : PoolEntry) : Mapping :=
  { handle := (h.buffer e.bo).handle, va := e.va, size := e.size }

theorem Heap.mapping_congr {h h' : Heap} {entries : List PoolEntry}
    (same : ∀ e ∈ entries, h'.buffer e.bo = h.buffer e.bo) :
    entries.map h'.mapping = entries.map h.mapping := by
  refine List.map_congr_left fun e member => ?_
  rw [Heap.mapping, same e member]
  rfl

/-- Ranges in order do not overlap as mappings, in whatever order they are
listed. -/
theorem PoolLayout.mappings_apart {sentinel : PoolEntry} {ranges listed : List PoolEntry}
    (layout : PoolLayout sentinel ranges) (perm : ranges.Perm listed) (h : Heap) :
    (listed.map h.mapping).Pairwise fun m m' => ¬ m.Overlaps m'.va m'.size := by
  have ordered := (List.pairwise_cons.mp layout.ordered).2
  have apart : ranges.Pairwise fun e e' =>
      ¬ (h.mapping e).Overlaps (h.mapping e').va (h.mapping e').size := by
    refine ordered.imp fun {e e'} before overlaps => ?_
    unfold Before at before
    unfold Mapping.Overlaps Heap.mapping at overlaps
    dsimp only at overlaps
    omega
  rw [List.pairwise_map]
  refine (perm.pairwise_iff ?_).mp apart
  intro e e' notOverlaps overlaps
  refine notOverlaps ?_
  unfold Mapping.Overlaps at overlaps ⊢
  omega

section Steps

variable {fresh : Allocator} {h h' : Heap} {ctx fd : Addr} {bufs : Finset BufPtr}
  {rest rest' : List Addr} {wholeSize domain alignment : Nat} {bo : BufPtr} {handles : List Nat}
  {k k₁ k₂ : Kernel}

theorem Allocated.handles_eq
    (alloc : Allocated h h' ctx bufs rest wholeSize domain alignment bo handles rest') :
    (List.range' 0 (fragmentCount wholeSize)).map (fun j => (h'.buffer (bo.add j)).handle) =
      handles := by
  refine List.ext_getElem (by simp [alloc.count]) fun j left right => ?_
  rw [List.getElem_map, List.getElem_range', Nat.zero_add, Nat.one_mul, alloc.fragments j right]
  simp only [fragment]

theorem objectBytes_createArgs (wholeSize domain alignment j : Nat) :
    objectBytes (createArgs wholeSize domain alignment j) =
      vaSizeOf (fragmentBytes wholeSize j) := by
  rw [vaSizeOf_eq fragmentBytes_le]
  rfl

/-- What the driver is asked to map are the ranges the buffer got in the pool. -/
theorem Allocated.granted
    (alloc : Allocated h h' ctx bufs rest wholeSize domain alignment bo handles rest')
    (opens : Opened k k₁ (createRequests wholeSize domain alignment) handles)
    {news : List PoolEntry} (listed : ∀ e ∈ news, e ∈ h'.entries rest')
    (bos : news.map PoolEntry.bo = (List.range' 0 (fragmentCount wholeSize)).map bo.add) :
    (h'.mapRequests bo 0 radeonVmPageSnooped 0 (fragmentCount wholeSize)).map k₁.grant =
      news.map h'.mapping := by
  have sizes := opens.sizes
  rw [← alloc.handles_eq, createRequests, List.map_map, List.map_map, List.map_inj_left] at sizes
  have fromBuffer : news.map h'.mapping = (news.map PoolEntry.bo).map fun p =>
      { handle := (h'.buffer p).handle, va := (h'.buffer p).va, size := (h'.buffer p).vaSize } := by
    rw [List.map_map]
    refine List.map_congr_left fun e member => ?_
    obtain ⟨va, size⟩ := alloc.owned.agree e (listed e member)
    simp only [Heap.mapping, Function.comp, va, size]
  rw [fromBuffer, bos, Heap.mapRequests, List.map_map, List.map_map]
  refine List.map_congr_left fun j member => ?_
  have inRange : j < handles.length := by
    rw [alloc.count]
    simpa using member
  have vaSize : (h'.buffer (bo.add j)).vaSize = vaSizeOf (fragmentBytes wholeSize j) := by
    rw [alloc.fragments j inRange]
    simp only [fragment]
  have size := sizes j member
  rw [Function.comp_apply, Function.comp_apply, objectBytes_createArgs, ← vaSize] at size
  simp only [Function.comp, Kernel.grant, mapRequest, size]

/-- After an allocation the driver holds the ranges of the pool again. -/
theorem Allocated.holds (inv : PoolOwned h ctx bufs rest)
    (alloc : Allocated h h' ctx bufs rest wholeSize domain alignment bo handles rest')
    (holds : k.Holds ((h.entries rest).map h.mapping))
    (opens : Opened k k₁ (createRequests wholeSize domain alignment) handles)
    (maps : Maps (kernelDrm fresh) fd k₁
      (h'.mapRequests bo 0 radeonVmPageSnooped 0 (fragmentCount wholeSize)) k₂) :
    k₂.Holds ((h'.entries rest').map h'.mapping) := by
  obtain ⟨news, perm, bos, -⟩ := alloc.entries_perm
  have listed : ∀ e ∈ news, e ∈ h'.entries rest' := fun e member =>
    perm.mem_iff.mpr (List.mem_append_right _ member)
  have asked : (h'.mapRequests bo 0 radeonVmPageSnooped 0 (fragmentCount wholeSize)).map
      GemVa.handle = handles := by
    rw [← alloc.handles_eq, Heap.mapRequests, List.map_map]
    rfl
  have old : (h.entries rest).map h.mapping = (h.entries rest).map h'.mapping := by
    refine (Heap.mapping_congr fun e member => ?_).symm
    exact alloc.others _ (inv.owned e member).1 e.bo (inv.bo_block member)
  have extended := holds.extend opens maps asked
  rw [alloc.granted opens listed bos, old, ← List.map_append] at extended
  exact extended.perm (perm.symm.map _)

/-- The driver refuses none of the ranges an ordered pool gives out. -/
theorem Allocated.not_stops (inv : PoolOwned h ctx bufs rest)
    (alloc : Allocated h h' ctx bufs rest wholeSize domain alignment bo handles rest')
    (layout : PoolLayout (h'.sentinel ctx) (h'.entries rest'))
    (holds : k.Holds ((h.entries rest).map h.mapping))
    (opens : Opened k k₁ (createRequests wholeSize domain alignment) handles) :
    ¬ MapStops (kernelDrm fresh) fd k₁
      (h'.mapRequests bo 0 radeonVmPageSnooped 0 (fragmentCount wholeSize)) k₂ := by
  intro stops
  obtain ⟨news, perm, bos, -⟩ := alloc.entries_perm
  have listed : ∀ e ∈ news, e ∈ h'.entries rest' := fun e member =>
    perm.mem_iff.mpr (List.mem_append_right _ member)
  have old : (h.entries rest).map h.mapping = (h.entries rest).map h'.mapping := by
    refine (Heap.mapping_congr fun e member => ?_).symm
    exact alloc.others _ (inv.owned e member).1 e.bo (inv.bo_block member)
  have apart := layout.mappings_apart perm h'
  rw [List.map_append, List.pairwise_append, ← old] at apart
  have granted := alloc.granted opens listed bos
  refine stops.absurd ?_ ?_ ?_
  · intro va member
    obtain ⟨j, inRange, rfl⟩ := List.mem_map.mp member
    rw [opens.handles, ← alloc.handles_eq]
    exact .inr (List.mem_map.mpr ⟨j, inRange, rfl⟩)
  · intro m member m' isNew
    rw [opens.mappings, holds.mappings] at member
    rw [granted] at isNew
    exact apart.2.2 m member m' isNew
  · rw [granted]
    exact apart.2.1

/-- Releasing a buffer of one fragment closes all there is to close. -/
theorem Released.holds (fresh : Allocator) (fd : Nat) (inv : PoolOwned h ctx bufs rest)
    (hbo : bo ∈ bufs) (released : Released h h' ctx bufs rest bo rest')
    (single : (h.buffer bo).fragmentNumber = 1)
    (holds : k.Holds ((h.entries rest).map h.mapping)) :
    ((kernelDrm fresh).gemClose fd (h.buffer bo).handle k).Holds
      ((h'.entries rest').map h'.mapping) := by
  obtain ⟨own, ownIn, ownBo⟩ := inv.listed bo hbo 0 (inv.buffers bo hbo).positive
  rw [BufPtr.add_zero] at ownBo
  have distinct := holds.distinct
  rw [List.map_map] at distinct
  -- the closed handle is the handle of the one range that is released
  have mine : ∀ e ∈ h.entries rest,
      e.parentBo = bo ↔ (h.mapping e).handle = (h.buffer bo).handle := by
    intro e member
    constructor
    · intro parent
      obtain ⟨-, i, hi, same⟩ := inv.owned e member
      rw [parent, single] at hi
      obtain rfl : i = 0 := by omega
      rw [Heap.mapping, same, parent, BufPtr.add_zero]
    · intro same
      have ownSame : (h.mapping own).handle = (h.buffer bo).handle := by
        rw [Heap.mapping, ownBo]
      obtain rfl : e = own :=
        List.inj_on_of_nodup_map distinct member ownIn (same.trans ownSame.symm)
      refine inv.eq_of_block (inv.owned e member).1 hbo ?_
      rw [← inv.bo_block member, ownBo]
  have kept : ((h.entries rest).map h.mapping).filter
      (fun m => m.handle ≠ (h.buffer bo).handle) = (release bo (h.entries rest)).map h.mapping := by
    rw [List.filter_map, release]
    refine congrArg (List.map h.mapping) (List.filter_congr fun e member => ?_)
    have equal := mine e member
    simp only [Function.comp, ne_eq, ← equal]
  have closed := @Kernel.Holds.close fresh fd k _ holds (h.buffer bo).handle
  rw [kept] at closed
  rw [Heap.mapping_congr fun e _ => released.buffer e.bo, released.entries]
  exact closed

end Steps

/-- What the driver holds is what the caller and the pool say. -/
theorem PoolInv.kernelAgrees {k : Kernel} {h : Heap} {ctx : Addr} {held : Finset BufPtr}
    {rest : List Addr} (inv : PoolInv h ctx held rest)
    (holds : k.Holds ((h.entries rest).map h.mapping)) : KernelAgrees k h ctx held := by
  have nodes : (h.poolNodes ctx).tail = rest := by
    rw [inv.1.pool.poolNodes_eq]
    rfl
  constructor
  · intro x
    rw [holds.handles, List.map_map, List.mem_map]
    constructor
    · rintro ⟨e, member, rfl⟩
      obtain ⟨parentIn, i, hi, same⟩ := inv.1.owned e member
      exact ⟨e.bo, ⟨e.parentBo, parentIn, i, hi, same⟩, rfl⟩
    · rintro ⟨p, ⟨b, hb, i, hi, rfl⟩, rfl⟩
      obtain ⟨e, member, same⟩ := inv.1.listed b hb i hi
      exact ⟨e, member, by rw [← same]; rfl⟩
  · intro va size
    rw [nodes]
    constructor
    · rintro ⟨m, member, rfl, rfl⟩
      obtain ⟨e, inEntries, rfl⟩ := List.mem_map.mp ((holds.mappings m).mp member)
      obtain ⟨a, inRest, rfl⟩ := Heap.mem_entries.mp inEntries
      exact ⟨a, inRest, rfl, rfl⟩
    · rintro ⟨a, inRest, rfl, rfl⟩
      exact ⟨_, (holds.mappings _).mpr (List.mem_map_of_mem (h.entry_mem inRest)), rfl, rfl⟩

/-! ## Runs -/

namespace Client

variable (ctx : Addr)

/-- Requests of up to 2^32 - 1 fragments that fit behind the pool, and releases of
buffers that are held. `calloc` must not return the pointer that the reserved node
happens to hold. -/
def Fits {κ : Type} (s : Client κ) : Call → Prop
  | .alloc libc size _ _ => RequestOk size ∧
      poolEnd (s.ranges ctx) + (size + 4095) / 4096 * 4096 < 2 ^ 64 ∧
      (s.world.heap.sentinel ctx).parentBo ≠ ⟨libc.buffer.choose s.world.heap.buffers.live, 0⟩
  | .free bo => bo ∈ s.held

instance {κ : Type} (s : Client κ) : (c : Call) → Decidable (s.Fits ctx c)
  | .alloc libc size _ _ => inferInstanceAs (Decidable (RequestOk size ∧
      poolEnd (s.ranges ctx) + (size + 4095) / 4096 * 4096 < 2 ^ 64 ∧
      (s.world.heap.sentinel ctx).parentBo ≠ ⟨libc.buffer.choose s.world.heap.buffers.live, 0⟩))
  | .free bo => inferInstanceAs (Decidable (bo ∈ s.held))

/-- The call frees no buffer of several fragments. -/
def FreesOneFragment {κ : Type} (s : Client κ) : Call → Prop
  | .alloc .. => True
  | .free bo => (s.world.heap.buffer bo).fragmentNumber = 1

instance {κ : Type} (s : Client κ) : (c : Call) → Decidable (s.FreesOneFragment c)
  | .alloc .. => inferInstanceAs (Decidable True)
  | .free bo => inferInstanceAs (Decidable ((s.world.heap.buffer bo).fragmentNumber = 1))

/-- The pool is in order and the driver holds its ranges. -/
def KernelInv (s : Client Kernel) : Prop :=
  ∃ rest, PoolInv s.world.heap ctx s.held rest ∧
    s.world.kernel.Holds ((s.world.heap.entries rest).map s.world.heap.mapping)

variable (fresh : Allocator)

theorem kernelDrm_creates (fd : Nat) (args : GemCreate) (k : Kernel) :
    ((kernelDrm fresh).gemCreate fd args k).1 ≠ none := Option.some_ne_none _

/-- In a state that agrees, an allocation returns a buffer, and the states agree
again. -/
theorem KernelInv.alloc {s : Client Kernel} (inv : s.KernelInv ctx) {libc : Libc}
    {size domain : Nat} {alignment : Int}
    (fits : s.Fits ctx (.alloc libc size domain alignment)) :
    ∃ bo w', computeAllocGpuBuffer (kernelDrm fresh) libc s.world ctx size domain alignment =
        .ok (some bo, w') ∧ KernelInv ctx { world := w', held := insert bo s.held } := by
  obtain ⟨rest, ⟨owned, layout⟩, holds⟩ := inv
  obtain ⟨ok, room, foreign⟩ := fits
  rw [ranges, owned.ranges_eq] at room
  obtain ⟨bo, handles, h', rest', k₁, k₂, alloc, created, outcome⟩ :=
    @computeAllocGpuBuffer_spec Kernel (kernelDrm fresh) ctx s.held rest size domain libc s.world
      alignment owned ok foreign (kernelDrm_creates fresh)
  have opens := created.opened
  have layout' := alloc.layout layout (alloc.below layout ok.1 room)
  rcases outcome with ⟨run, maps⟩ | ⟨h'', rest'', -, stops, -⟩
  · exact ⟨bo, _, run, rest', ⟨alloc.owned, layout'⟩, alloc.holds owned holds opens maps⟩
  · exact absurd stops (alloc.not_stops owned layout' holds opens)

/-- So does a release of a buffer that is held, which returns. -/
theorem KernelInv.free {s : Client Kernel} (inv : s.KernelInv ctx) {bo : BufPtr}
    (held : bo ∈ s.held) :
    ∃ w', computeFreeGpuBuffer (kernelDrm fresh) s.world bo = .ok w' ∧
      ((s.world.heap.buffer bo).fragmentNumber = 1 →
        KernelInv ctx { world := w', held := s.held.erase bo }) := by
  obtain ⟨rest, pool, holds⟩ := inv
  obtain ⟨owned, layout⟩ := id pool
  obtain ⟨h', rest', free, released⟩ :=
    computeFreeGpuBuffer_spec (kernelDrm fresh) owned held (pool.va_ne_zero held)
  refine ⟨_, free, fun single => ⟨rest', ⟨released.owned, ?_⟩, ?_⟩⟩
  · show PoolLayout (h'.sentinel ctx) (h'.entries rest')
    rw [released.sentinel, released.entries]
    exact layout.sublist List.filter_sublist
  · exact Released.holds fresh (s.world.heap.contexts.cell ctx).fd owned held released single holds

/-- Agreement is inductive as long as buffers of several fragments stay. -/
theorem inductive_kernelInv :
    (callerSystem (kernelDrm fresh) ctx Kernel.Unused
      fun s c _ => s.Fits ctx c ∧ s.FreesOneFragment c).Inductive (KernelInv ctx) where
  init s start := by
    obtain ⟨unused, held, libc, h, reservedMem, ctxLive, small, run⟩ := start
    obtain ⟨h', run', inv, -⟩ := createVmPool_spec libc ctxLive small
    obtain rfl : h' = s.world.heap := by simpa [run] using run'.symm
    refine ⟨[], ?_, unused.holds⟩
    rw [held]
    exact inv
  step s c s' inv hstep := by
    obtain ⟨⟨fits, single⟩, run⟩ := hstep
    cases c with
    | free bo =>
        obtain ⟨w', free, keeps⟩ := inv.free ctx fresh fits
        simp only [Client.call, free, ok_bind] at run
        obtain rfl := Except.ok.inj run
        exact keeps single
    | alloc libc size domain alignment =>
        obtain ⟨bo, w', alloc, keeps⟩ := inv.alloc ctx fresh fits
        simp only [Client.call, alloc, ok_bind] at run
        obtain rfl := Except.ok.inj run
        exact keeps

end Client

/-- **Pool and driver agree** in every state of a run that frees only buffers
of one fragment, and there the next call returns: an allocation with a buffer, so
none is refused a range. -/
theorem callerSystem_kernelAgrees (fresh : Allocator) (ctx : Addr) {s : Client Kernel}
    (reach : (callerSystem (kernelDrm fresh) ctx Kernel.Unused
      fun s c _ => s.Fits ctx c ∧ s.FreesOneFragment c).Reachable s) :
    KernelAgrees s.world.kernel s.world.heap ctx s.held ∧
      (∀ libc size domain alignment, s.Fits ctx (.alloc libc size domain alignment) →
        ∃ bo w', computeAllocGpuBuffer (kernelDrm fresh) libc s.world ctx size domain alignment =
          .ok (some bo, w')) ∧
      ∀ bo ∈ s.held, ∃ w', computeFreeGpuBuffer (kernelDrm fresh) s.world bo = .ok w' := by
  have inv := (Client.inductive_kernelInv ctx fresh).invariant reach
  refine ⟨?_, fun libc size domain alignment fits => ?_, fun bo held => ?_⟩
  · obtain ⟨rest, pool, holds⟩ := inv
    exact pool.kernelAgrees holds
  · obtain ⟨bo, w', run, -⟩ := inv.alloc ctx fresh fits
    exact ⟨bo, w', run⟩
  · obtain ⟨w', run, -⟩ := inv.free ctx fresh held
    exact ⟨w', run⟩

def Kernel.empty : Kernel := { handles := ∅, objectSize := fun _ => 0, mappings := ∅ }

/-- A buffer of two fragments is allocated, and one of a single fragment is
allocated and freed. -/
theorem callerSystem_kernelAgrees_smallFree :
    ∃ s, Client.run (kernelDrm .above) (fun s c _ => s.Fits 0 c ∧ s.FreesOneFragment c) .empty
        [.alloc .above 104857600 2 4096, .alloc .above 5000 2 4096, .free ⟨2, 0⟩] = some s ∧
      KernelAgrees s.world.kernel s.world.heap 0 s.held := by
  obtain ⟨s, run⟩ := Option.isSome_iff_exists.mp (show
    (Client.run (kernelDrm .above) (fun s c _ => s.Fits 0 c ∧ s.FreesOneFragment c) .empty
      [.alloc .above 104857600 2 4096, .alloc .above 5000 2 4096, .free ⟨2, 0⟩]).isSome = true by
    decide +kernel)
  have reach := Client.reachable_of_run (kernelDrm .above)
    (fun s c _ => s.Fits 0 c ∧ s.FreesOneFragment c) Kernel.Unused ⟨rfl, rfl⟩ run
  exact ⟨s, run, (callerSystem_kernelAgrees .above 0 reach).1⟩

/-- Freeing a buffer of two fragments leaves the second one open and mapped: a
request of the same size is then refused, though nothing is held. -/
theorem kernel_disagrees_after_largeFree :
    ∃ s w', (callerSystem (kernelDrm .above) 0 Kernel.Unused fun s c _ => s.Fits 0 c).Reachable s ∧
      s.held = ∅ ∧ ¬ KernelAgrees s.world.kernel s.world.heap 0 s.held ∧
      s.Fits 0 (.alloc .above 104857600 2 4096) ∧
      computeAllocGpuBuffer (kernelDrm .above) .above s.world 0 104857600 2 4096 =
        .ok (none, w') := by
  obtain ⟨s, run, facts⟩ := Option.map_eq_some_iff.mp (show
    (Client.run (kernelDrm .above) (fun s c _ => s.Fits 0 c) .empty
      [.alloc .above 104857600 2 4096, .free ⟨1, 0⟩]).map (fun s =>
        (decide (s.held = ∅ ∧ 2 ∈ s.world.kernel.handles ∧
          s.Fits 0 (.alloc .above 104857600 2 4096)),
        (computeAllocGpuBuffer (kernelDrm .above) .above s.world 0 104857600 2 4096).toOption.map
          Prod.fst)) = some (true, some none) by decide +kernel)
  obtain ⟨state, refused⟩ := Prod.mk.inj facts
  obtain ⟨nothing, leaked, fits⟩ := of_decide_eq_true state
  have reach := Client.reachable_of_run (kernelDrm .above) (fun s c _ => s.Fits 0 c)
    Kernel.Unused ⟨rfl, rfl⟩ run
  obtain ⟨⟨result, w'⟩, returned, rfl⟩ := Option.map_eq_some_iff.mp refused
  refine ⟨s, w', reach, nothing, fun agrees => ?_, fits, toOption_eq_some.mp returned⟩
  -- no fragment is held, so no handle should be open
  obtain ⟨p, ⟨b, hb, -⟩, -⟩ := (agrees.handles 2).mp leaked
  rw [nothing] at hb
  exact absurd hb (Finset.notMem_empty b)

end RadeonsiCompute
