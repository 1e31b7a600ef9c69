import RadeonsiCompute.Buffer.AllOrNothing
import RadeonsiCompute.Buffer.Each
import RadeonsiCompute.Transfer.Held

/-!
# Where the bytes of a buffer are

The copy functions reach a byte through the object of its fragment, the hardware
through its address. In every state of a legal run, whatever the driver refused
before, the two come to the same: the fragments of a buffer are mapped one after
the other, each through a handle of its own, and no two bytes of the buffers
held share an address.
-/

namespace RadeonsiCompute

open Lib

variable {κ : Type}

/-! ## What the driver maps -/

section Requests

variable {drm : Drm κ} {fd : Nat} {view : κ → Kernel} {k k' : κ}

/-- Requests that were granted are mapped, and nothing else changes. -/
theorem Drm.Keeps.granted (keeps : drm.Keeps fd view) {requests : List GemVa}
    (maps : Maps drm fd k requests k') :
    ∀ m, m ∈ (view k').mappings ↔ m ∈ (view k).mappings ∨ m ∈ requests.map (view k).grant := by
  induction maps with
  | nil => simp
  | @cons k k₁ k₂ va rest answer reply granted _ ih =>
      have mapped := keeps.mapped reply granted
      have same : rest.map (view k₁).grant = rest.map (view k).grant := by
        rw [mapped]
        rfl
      intro m
      rw [ih, same, mapped, List.map_cons, List.mem_cons]
      simp only [Kernel.map, Finset.mem_insert]
      tauto

/-- A refusal takes no mapping away. -/
theorem Drm.Keeps.stopped (keeps : drm.Keeps fd view) {requests : List GemVa}
    (stops : MapStops drm fd k requests k') : ∀ m ∈ (view k).mappings, m ∈ (view k').mappings := by
  obtain ⟨granted, va, later, k₁, answer, rfl, maps, reply, refused⟩ := stops
  intro m member
  rw [keeps.notMapped reply refused]
  exact (keeps.granted maps m).mpr (.inl member)

end Requests

/-- The mapping of a fragment. -/
def Heap.mappingOf (h : Heap) (p : BufPtr) : Mapping :=
  { handle := (h.buffer p).handle, va := (h.buffer p).va, size := (h.buffer p).vaSize }

theorem Heap.mappingOf_congr {h h' : Heap} {p : BufPtr} (same : h'.buffer p = h.buffer p) :
    h'.mappingOf p = h.mappingOf p := by
  rw [Heap.mappingOf, same]
  rfl

/-- The fragments of the buffers are mapped, each through a handle of its own. -/
structure Heap.MappedIn (h : Heap) (held : Finset BufPtr) (k : Kernel) : Prop where
  mapped : ∀ p ∈ h.fragmentsOf held, h.mappingOf p ∈ k.mappings
  handles : Set.InjOn (fun p => (h.buffer p).handle) (h.fragmentsOf held)

section Steps

variable {drm : Drm κ} {view : Nat → κ → Kernel} {ctx : Addr} {h h' : Heap}
  {held : Finset BufPtr} {rest rest' : List Addr} {k k' : Kernel}

/-- A fragment of a buffer whose array is as it was is a fragment of before. -/
theorem Heap.fragmentsOf_old {b p : BufPtr} (hb : b ∈ held) {i : Nat}
    (hi : i < (h'.buffer b).fragmentNumber) (own : p = b.add i)
    (same : ∀ p : BufPtr, p.block = b.block → h'.buffer p = h.buffer p) :
    p ∈ h.fragmentsOf held ∧ h'.buffer p = h.buffer p := by
  rw [same b rfl] at hi
  refine ⟨⟨b, hb, i, hi, own⟩, same p ?_⟩
  rw [own, BufPtr.add_block]

/-- What was mapped stays mapped if the driver only drops foreign handles. -/
theorem Heap.MappedIn.mono (mapped : h.MappedIn held k) {held' : Finset BufPtr}
    (old : ∀ p ∈ h'.fragmentsOf held', p ∈ h.fragmentsOf held ∧ h'.buffer p = h.buffer p)
    (kept : ∀ p ∈ h'.fragmentsOf held', h.mappingOf p ∈ k.mappings → h.mappingOf p ∈ k'.mappings) :
    h'.MappedIn held' k' where
  mapped p member := by
    obtain ⟨before, same⟩ := old p member
    rw [Heap.mappingOf_congr same]
    exact kept p member (mapped.mapped p before)
  handles p inP q inQ same := by
    obtain ⟨beforeP, sameP⟩ := old p inP
    obtain ⟨beforeQ, sameQ⟩ := old q inQ
    refine mapped.handles beforeP beforeQ ?_
    simp only [sameP, sameQ] at same
    exact same

/-- A new fragment is mapped through the handle created for it. -/
theorem Allocated.mappedIn {wholeSize domain alignment : Nat} {bo : BufPtr} {handles : List Nat}
    {k₁ : Kernel} (sound : k.Sound) (mapped : h.MappedIn held k) (ok : RequestOk wholeSize)
    (alloc : Allocated h h' ctx held rest wholeSize domain alignment bo handles rest')
    (opens : Opened k k₁ (createRequests wholeSize domain alignment) handles)
    (maps : ∀ m, m ∈ k'.mappings ↔ m ∈ k₁.mappings ∨
      m ∈ (h'.mapRequests bo 0 radeonVmPageSnooped 0 (fragmentCount wholeSize)).map k₁.grant) :
    h'.MappedIn (insert bo held) k' := by
  obtain ⟨news, perm, bos, -⟩ := alloc.entries_perm
  have listed : ∀ e ∈ news, e ∈ h'.entries rest' := fun e member =>
    perm.mem_iff.mpr (List.mem_append_right _ member)
  have granted := alloc.granted opens listed bos
  have number := alloc.number ok
  have split := alloc.fragmented ok opens.nodup
  have fresh : ∀ j < fragmentCount wholeSize, (h'.buffer (bo.add j)).handle ∈ handles := by
    intro j hj
    rw [← alloc.handles_eq]
    exact List.mem_map.mpr ⟨j, by simpa using hj, rfl⟩
  have which : ∀ p ∈ h'.fragmentsOf (insert bo held),
      (∃ j < fragmentCount wholeSize, p = bo.add j) ∨
        p ∈ h.fragmentsOf held ∧ h'.buffer p = h.buffer p := by
    rintro p ⟨b, hb, i, hi, own⟩
    rcases Finset.mem_insert.mp hb with rfl | old
    · rw [number] at hi
      exact .inl ⟨i, hi, own⟩
    · exact .inr (Heap.fragmentsOf_old old hi own (alloc.others b old))
  have oldOpen : ∀ p ∈ h.fragmentsOf held, (h.buffer p).handle ∈ k.handles := fun p member =>
    sound _ (mapped.mapped p member)
  constructor
  · intro p member
    rw [maps]
    rcases which p member with ⟨j, hj, rfl⟩ | ⟨before, same⟩
    · refine .inr ?_
      rw [granted]
      have inBos : bo.add j ∈ news.map PoolEntry.bo := by
        rw [bos]
        exact List.mem_map_of_mem (by simpa using hj)
      obtain ⟨e, inNews, same⟩ := List.mem_map.mp inBos
      obtain ⟨va, size⟩ := alloc.owned.agree e (listed e inNews)
      refine List.mem_map.mpr ⟨e, inNews, ?_⟩
      rw [Heap.mapping, Heap.mappingOf, va, size, same]
    · rw [opens.mappings, Heap.mappingOf_congr same]
      exact .inl (mapped.mapped p before)
  · intro p inP q inQ same
    rcases which p inP with ⟨i, hi, rfl⟩ | ⟨beforeP, sameP⟩ <;>
      rcases which q inQ with ⟨j, hj, rfl⟩ | ⟨beforeQ, sameQ⟩
    · rw [split.handles i hi j hj same]
    · simp only [sameQ] at same
      exact absurd (oldOpen q beforeQ) (opens.new _ (same ▸ fresh i hi))
    · simp only [sameP] at same
      exact absurd (oldOpen p beforeP) (opens.new _ (same ▸ fresh j hj))
    · simp only [sameP, sameQ] at same
      exact mapped.handles beforeP beforeQ same

/-- **Every fragment stays mapped** through any legal call. -/
theorem Client.Changed.mappedIn (honest : drm.Honest view) {s s' : Client κ}
    (changed : s.Changed drm ctx rest s') (owned : PoolOwned s.world.heap ctx s.held rest)
    (mapped : s.world.heap.MappedIn s.held
      (view (s.world.heap.contexts.cell ctx).fd s.world.kernel)) :
    s'.world.heap.MappedIn s'.held (view (s'.world.heap.contexts.cell ctx).fd s'.world.kernel) := by
  rw [changed.contexts]
  have keeps := honest.keeps (s.world.heap.contexts.cell ctx).fd
  have sound := honest.sound (s.world.heap.contexts.cell ctx).fd s.world.kernel
  cases changed with
  | @freed bo rest' hbo held released closed =>
      rw [held, closed, keeps.closed]
      have old : ∀ p ∈ s'.world.heap.fragmentsOf (s.held.erase bo),
          p ∈ s.world.heap.fragmentsOf s.held ∧
            s'.world.heap.buffer p = s.world.heap.buffer p := by
        rintro p ⟨b, hb, i, hi, own⟩
        exact Heap.fragmentsOf_old (Finset.mem_of_mem_erase hb) hi own
          fun q _ => released.buffer q
      refine mapped.mono old fun p member inK => ?_
      refine Finset.mem_filter.mpr ⟨inK, fun same => ?_⟩
      -- the handle that is closed is the one of the first fragment released
      have first : bo ∈ s.world.heap.fragmentsOf s.held :=
        ⟨bo, hbo, 0, (owned.buffers bo hbo).positive, (BufPtr.add_zero bo).symm⟩
      obtain rfl : p = bo := mapped.handles (old p member).1 first same
      obtain ⟨b, hb, i, -, own⟩ := member
      refine owned.apart hbo b hb ?_
      rw [own, BufPtr.add_block]
  | allocated ok held answer =>
      rw [held]
      cases answer with
      | buffer alloc created maps =>
          exact Allocated.mappedIn sound mapped ok alloc (keeps.opened created)
            (keeps.granted maps)
  | abandoned ok held answer =>
      rw [held]
      cases answer with
      | @nothing bo handles h' rest' k₁ k₂ _ abandoned count created stops closed =>
          rw [closed, keeps.closed]
          have opens := keeps.opened created
          refine mapped.mono ?_ fun p member inK => ?_
          · rintro p ⟨b, hb, i, hi, own⟩
            exact Heap.fragmentsOf_old hb hi own (abandoned.others b hb)
          · have positive := fragmentCount_pos ok.1
            have isNew : handles.headD 0 ∈ handles := by
              cases handles with
              | nil => rw [← count] at positive; exact absurd positive (by simp)
              | cons handle handles => exact List.mem_cons_self
            refine Finset.mem_filter.mpr
              ⟨keeps.stopped stops _ (opens.mappings ▸ inK), fun same => ?_⟩
            exact opens.new _ isNew (same ▸ sound _ inK)

end Steps

/-! ## Where the fragments are -/

/-- The buffer has `total` bytes, in fragments that take whole pages. -/
structure Sized (h : Heap) (bo : BufPtr) (total : Nat) : Prop where
  fragmented : Fragmented h bo total
  vaSize : ∀ j < fragmentCount total,
    (h.buffer (bo.add j)).vaSize = vaSizeOf (fragmentBytes total j)

theorem Client.Changed.sized {drm : Drm κ} {view : Nat → κ → Kernel} (honest : drm.Honest view)
    {ctx : Addr} {rest : List Addr} {s s' : Client κ} (changed : s.Changed drm ctx rest s')
    (all : ∀ b ∈ s.held, ∃ total, Sized s.world.heap b total) :
    ∀ b ∈ s'.held, ∃ total, Sized s'.world.heap b total := by
  refine changed.each (P := fun h b => ∃ total, Sized h b total) ?_ ?_ all
  · intro h h' b bufs rest' owned live contexts same sized
    obtain ⟨total, split, vaSize⟩ := sized
    refine ⟨total, split.frame owned live contexts same, fun j hj => ?_⟩
    rw [same _ (BufPtr.add_block b j)]
    exact vaSize j hj
  · intro bo wholeSize domain alignment handles rest' k ok alloc created
    have opens := (honest.keeps _).opened created
    refine ⟨wholeSize, alloc.fragmented ok opens.nodup, fun j hj => ?_⟩
    rw [alloc.fragments j (by rw [alloc.count]; exact hj)]
    simp only [fragment]

section Addresses

variable {h : Heap} {ctx : Addr} {held : Finset BufPtr} {rest : List Addr} {b b' : BufPtr}
  {total total' o o' : Nat}

/-- The range of a fragment in the pool. -/
theorem LegalInv.range (legal : LegalInv h ctx held rest) (hb : b ∈ held) {j : Nat}
    (hj : j < (h.buffer b).fragmentNumber) :
    ∃ e ∈ h.entries rest, e.bo = b.add j ∧ e.parentBo = b ∧ e.va = (h.buffer (b.add j)).va ∧
      e.size = (h.buffer (b.add j)).vaSize ∧ e.va + e.size < 2 ^ 64 := by
  obtain ⟨e, member, same⟩ := legal.owned.listed b hb j hj
  obtain ⟨va, size⟩ := legal.owned.agree e member
  rw [same] at va size
  refine ⟨e, member, same, legal.owned.eq_of_block (legal.owned.owned e member).1 hb ?_, va, size,
    legal.layout.below e (List.mem_cons_of_mem _ member)⟩
  rw [← legal.owned.bo_block member, same, BufPtr.add_block]

/-- The fragments are mapped one after the other. -/
theorem Sized.fragment_va (sized : Sized h b total) (legal : LegalInv h ctx held rest)
    (hb : b ∈ held) (j : Nat) (hj : j < fragmentCount total) :
    (h.buffer (b.add j)).va = (h.buffer b).va + j * fragmentSize := by
  have number := sized.fragmented.number
  induction j with
  | zero => rw [BufPtr.add_zero, Nat.zero_mul, Nat.add_zero]
  | succ j ih =>
      obtain ⟨e, member, -, parent, -⟩ := legal.range hb (show j < _ by omega)
      obtain ⟨x, inX, y, inY, boX, boY, next⟩ := legal.stacked.adjacent
        (show j + 1 < (h.buffer b).fragmentNumber by omega) ⟨e, member, parent⟩
      obtain ⟨vaX, sizeX⟩ := legal.owned.agree x inX
      have below := legal.layout.below x (List.mem_cons_of_mem _ inX)
      rw [add64_of_lt below, vaX, sizeX, boX, sized.vaSize j (by omega), fragmentBytes_of_lt hj,
        vaSizeOf_fragmentSize, (legal.owned.agree y inY).1, boY, ih (by omega)] at next
      rw [next, Nat.succ_mul, Nat.add_assoc]

/-- The address of a byte, in the range of its fragment. -/
theorem Sized.byte_va (sized : Sized h b total) (legal : LegalInv h ctx held rest)
    (hb : b ∈ held) (inside : o < total) :
    (h.buffer b).va + o = (h.buffer (b.add (o / fragmentSize))).va + o % fragmentSize ∧
      o % fragmentSize < (h.buffer (b.add (o / fragmentSize))).vaSize := by
  obtain ⟨inRange, small⟩ := mod_lt_fragmentBytes inside
  have split := Nat.div_add_mod o fragmentSize
  rw [Nat.mul_comm] at split
  refine ⟨?_, ?_⟩
  · rw [sized.fragment_va legal hb _ inRange]
    omega
  · rw [sized.vaSize _ inRange]
    exact Nat.lt_of_lt_of_le small (le_vaSizeOf fragmentBytes_le)

/-- No byte of a buffer is at an address of 2^64 or above. -/
theorem Sized.byte_lt (sized : Sized h b total) (legal : LegalInv h ctx held rest)
    (hb : b ∈ held) (inside : o < total) : (h.buffer b).va + o < 2 ^ 64 := by
  obtain ⟨address, small⟩ := sized.byte_va legal hb inside
  have inRange := (mod_lt_fragmentBytes inside).1
  rw [← sized.fragmented.number] at inRange
  obtain ⟨e, -, -, -, va, size, below⟩ := legal.range hb inRange
  omega

/-- **No two bytes share an address.** -/
theorem Sized.byte_inj (sized : Sized h b total) (sized' : Sized h b' total')
    (legal : LegalInv h ctx held rest) (hb : b ∈ held) (hb' : b' ∈ held) (inside : o < total)
    (inside' : o' < total') (same : (h.buffer b).va + o = (h.buffer b').va + o') :
    b = b' ∧ o = o' := by
  obtain ⟨address, small⟩ := sized.byte_va legal hb inside
  obtain ⟨address', small'⟩ := sized'.byte_va legal hb' inside'
  have inRange := (mod_lt_fragmentBytes inside).1
  have inRange' := (mod_lt_fragmentBytes inside').1
  rw [← sized.fragmented.number] at inRange
  rw [← sized'.fragmented.number] at inRange'
  obtain ⟨e, member, -, parent, va, size, -⟩ := legal.range hb inRange
  obtain ⟨e', member', -, parent', va', size', -⟩ := legal.range hb' inRange'
  have ordered := (List.pairwise_cons.mp legal.layout.ordered).2
  have shared : e = e' := by
    refine Ordered.eq_of_mem (x := (h.buffer b).va + o) ordered member member' ?_ ?_
    · rw [address]
      unfold extent
      rw [va, size]
      exact ⟨Nat.le_add_right _ _, by omega⟩
    · rw [same, address']
      unfold extent
      rw [va', size']
      exact ⟨Nat.le_add_right _ _, by omega⟩
  obtain rfl : b = b' := by rw [← parent, ← parent', shared]
  exact ⟨rfl, by omega⟩

end Addresses

/-! ## Over runs -/

namespace Client

variable (view : Nat → κ → Kernel) (ctx : Addr)

/-- The pool is in order, and every buffer held is split into mapped fragments
of the context. -/
structure Placed (s : Client κ) (rest : List Addr) : Prop where
  legal : LegalInv s.world.heap ctx s.held rest
  mapped : s.world.heap.MappedIn s.held (view (s.world.heap.contexts.cell ctx).fd s.world.kernel)
  sized : ∀ b ∈ s.held, ∃ total, Sized s.world.heap b total
  own : ∀ b ∈ s.held, s.world.heap.OwnFragments ctx b

/-- A legal call that returns keeps all of this. -/
theorem Placed.call {drm : Drm κ} (honest : drm.Honest view) {s s' : Client κ} {rest : List Addr}
    (placed : s.Placed view ctx rest) {c : Call} (legal : s.Legal ctx c)
    (run : s.call drm ctx c = .ok s') : ∃ rest', s'.Placed view ctx rest' := by
  have changed := Client.changed placed.legal.inv legal run
  obtain ⟨rest', kept⟩ := (placed.legal.call honest legal run).1
  exact ⟨rest', kept, changed.mappedIn honest placed.legal.owned placed.mapped,
    changed.sized honest placed.sized, changed.ownFragments placed.own⟩

/-- The pool of a new context has nothing to place. -/
theorem Placed.start {libc : Libc} {h : Heap} {reservedMem : Nat} {s : Client κ}
    (held : s.held = ∅) (ctxLive : ctx ∈ h.contexts.live) (small : reservedMem + 4096 < 2 ^ 64)
    (run : createVmPool libc h ctx reservedMem = .ok s.world.heap) :
    s.Placed view ctx [] where
  legal := by
    rw [held]
    exact .create ctxLive small run
  mapped := by
    rw [held]
    constructor
    · rintro p ⟨b, hb, -⟩
      exact absurd hb (Finset.notMem_empty b)
    · rintro p ⟨b, hb, -⟩
      exact absurd hb (Finset.notMem_empty b)
  sized b hb := by
    rw [held] at hb
    exact absurd hb (Finset.notMem_empty b)
  own b hb := by
    rw [held] at hb
    exact absurd hb (Finset.notMem_empty b)

end Client

end RadeonsiCompute
