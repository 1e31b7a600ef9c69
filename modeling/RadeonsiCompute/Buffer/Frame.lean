import RadeonsiCompute.Buffer.Legal

/-!
# What a call leaves alone

A process may have several contexts. `Heap.Outside` says which nodes, arrays
and contexts of a heap may have changed; every other allocated block is as it
was. An allocation or a release changes only nodes of its own pool and its own
array, so the pool of another context does not see it.
-/

namespace RadeonsiCompute

open Lib

/-- The allocated blocks of `h` outside the given ones are the same in `h'`. -/
structure Heap.Outside (h h' : Heap) (nodes arrays contexts : Set Addr) : Prop where
  node : ∀ a ∈ h.nodes.live, a ∉ nodes → a ∈ h'.nodes.live ∧ h'.nodes.cell a = h.nodes.cell a
  array : ∀ a ∈ h.buffers.live, a ∉ arrays →
    a ∈ h'.buffers.live ∧ h'.buffers.cell a = h.buffers.cell a
  context : ∀ a ∈ h.contexts.live, a ∉ contexts →
    a ∈ h'.contexts.live ∧ h'.contexts.cell a = h.contexts.cell a

namespace Heap.Outside

variable {h h' h'' : Heap} {nodes nodes' arrays arrays' contexts contexts' : Set Addr}

theorem refl (h : Heap) (nodes arrays contexts : Set Addr) : h.Outside h nodes arrays contexts :=
  ⟨fun _ live _ => ⟨live, rfl⟩, fun _ live _ => ⟨live, rfl⟩, fun _ live _ => ⟨live, rfl⟩⟩

/-- What the second change touches is touched by the first or was not there. -/
theorem trans (first : h.Outside h' nodes arrays contexts)
    (second : h'.Outside h'' nodes' arrays' contexts')
    (inNodes : ∀ a ∈ nodes', a ∈ h.nodes.live → a ∈ nodes)
    (inArrays : ∀ a ∈ arrays', a ∈ h.buffers.live → a ∈ arrays)
    (inContexts : ∀ a ∈ contexts', a ∈ h.contexts.live → a ∈ contexts) :
    h.Outside h'' nodes arrays contexts := by
  constructor
  · intro a live out
    obtain ⟨live', same⟩ := first.node a live out
    obtain ⟨live'', same'⟩ := second.node a live' fun member => out (inNodes a member live)
    exact ⟨live'', same'.trans same⟩
  · intro a live out
    obtain ⟨live', same⟩ := first.array a live out
    obtain ⟨live'', same'⟩ := second.array a live' fun member => out (inArrays a member live)
    exact ⟨live'', same'.trans same⟩
  · intro a live out
    obtain ⟨live', same⟩ := first.context a live out
    obtain ⟨live'', same'⟩ := second.context a live' fun member => out (inContexts a member live)
    exact ⟨live'', same'.trans same⟩

theorem mono (same : h.Outside h' nodes arrays contexts) (moreNodes : nodes ⊆ nodes')
    (moreArrays : arrays ⊆ arrays') (moreContexts : contexts ⊆ contexts') :
    h.Outside h' nodes' arrays' contexts' where
  node a live out := same.node a live fun member => out (moreNodes member)
  array a live out := same.array a live fun member => out (moreArrays member)
  context a live out := same.context a live fun member => out (moreContexts member)

/-- Two changes to the same blocks. -/
theorem append (first : h.Outside h' nodes arrays contexts)
    (second : h'.Outside h'' nodes arrays contexts) : h.Outside h'' nodes arrays contexts :=
  first.trans second (fun _ member _ => member) (fun _ member _ => member)
    fun _ member _ => member

end Heap.Outside

/-- An array is what its count and its elements are. -/
theorem Heap.array_ext {h h' : Heap} {a : Addr}
    (count : (h'.buffers.cell a).count = (h.buffers.cell a).count)
    (elems : ∀ p : BufPtr, p.block = a → h'.buffer p = h.buffer p) :
    h'.buffers.cell a = h.buffers.cell a := by
  have elem : (h'.buffers.cell a).elem = (h.buffers.cell a).elem := by
    funext i
    exact elems ⟨a, i⟩ rfl
  cases new : h'.buffers.cell a with
  | mk count' elem' =>
      cases old : h.buffers.cell a with
      | mk count'' elem'' =>
          rw [new, old] at count elem
          rw [show count' = count'' from count, show elem' = elem'' from elem]

section Calls

variable {h h' : Heap} {ctx : Addr} {bufs held : Finset BufPtr} {rest rest' as news gone : List Addr}

theorem Grew.outside (grew : Grew h h' as news) {block : Addr}
    (others : ∀ p : BufPtr, p.block ≠ block → h'.buffer p = h.buffer p) :
    h.Outside h' {a | a ∈ as} {block} ∅ where
  node a live out :=
    ⟨(grew.live a).mpr (.inl live), grew.otherNode a out fun isNew => grew.fresh a isNew live⟩
  array a live out := by
    refine ⟨by rw [grew.buffersLive]; exact live, Heap.array_ext (grew.count a) ?_⟩
    rintro p rfl
    exact others p out
  context a live _ := by
    rw [grew.contexts]
    exact ⟨live, rfl⟩

theorem Shrank.outside (shrank : Shrank h h' as gone) (sub : ∀ a ∈ gone, a ∈ as) :
    h.Outside h' {a | a ∈ as} ∅ ∅ where
  node a live out :=
    ⟨(shrank.live a).mpr ⟨live, fun member => out (sub a member)⟩, shrank.otherNode a out⟩
  array a live _ := by
    rw [shrank.buffers]
    exact ⟨live, rfl⟩
  context a live _ := by
    rw [shrank.contexts]
    exact ⟨live, rfl⟩

theorem NewBuffer.outside {wholeSize domain alignment : Nat} {bo : BufPtr} {handles : List Nat}
    (new : NewBuffer ctx wholeSize domain alignment h h' bo handles) : h.Outside h' ∅ ∅ ∅ where
  node a live _ := by
    rw [new.nodes]
    exact ⟨live, rfl⟩
  array a live _ := by
    have other : a ≠ bo.block := fun same => new.fresh (same ▸ live)
    refine ⟨?_, Heap.array_ext (new.otherCount a other) ?_⟩
    · rw [new.buffersLive]
      exact Finset.mem_insert_of_mem live
    · rintro p rfl
      exact new.other p other
  context a live _ := by
    rw [new.contexts]
    exact ⟨live, rfl⟩

/-- Making the pool of a context takes a node that was not allocated. -/
theorem Heap.withPool_outside {a : Addr} (fresh : a ∉ h.nodes.live) (ctx reservedMem : Nat) :
    h.Outside (h.withPool ctx a reservedMem) ∅ ∅ {ctx} where
  node b live _ := by
    have other : b ≠ a := fun same => fresh (same ▸ live)
    exact ⟨Finset.mem_insert_of_mem live, Function.update_of_ne other _ _⟩
  array _ live _ := ⟨live, rfl⟩
  context _ live other := ⟨live, Function.update_of_ne other _ _⟩

theorem Heap.modifyBuffer_outside {p : BufPtr} {f : GpuBuffer → GpuBuffer}
    (written : h.modifyBuffer p f = .ok h') : h.Outside h' ∅ {p.block} ∅ := by
  obtain ⟨block, loaded, written⟩ := bind_eq_ok.mp written
  split at written
  · unfold Store.load at loaded
    split at loaded
    · next live =>
        rw [Store.modify_eq live, ok_bind] at written
        obtain rfl := Except.ok.inj written
        refine ⟨fun _ live _ => ⟨live, rfl⟩, fun a live other => ⟨live, ?_⟩,
          fun _ live _ => ⟨live, rfl⟩⟩
        exact Function.update_of_ne other _ _
    · exact nomatch loaded
  · exact nomatch written

theorem Heap.dropArray_outside (h : Heap) (bo : BufPtr) :
    h.Outside (h.dropArray bo) ∅ {bo.block} ∅ :=
  ⟨fun _ live _ => ⟨live, rfl⟩, fun _ live other => ⟨Finset.mem_erase.mpr ⟨other, live⟩, rfl⟩,
    fun _ live _ => ⟨live, rfl⟩⟩

theorem Heap.freeBuffer_outside {p : BufPtr} (freed : h.freeBuffer p = .ok h') :
    h.Outside h' ∅ {p.block} ∅ := by
  unfold Heap.freeBuffer Store.free at freed
  split at freed
  · split at freed
    · obtain rfl := Except.ok.inj freed
      exact h.dropArray_outside p
    · exact nomatch freed
  · exact nomatch freed

/-! ## The pool of another context -/

variable {nodes arrays contexts : Set Addr}

theorem PoolOwned.outside (inv : PoolOwned h ctx bufs rest)
    (same : h.Outside h' nodes arrays contexts) (ctxOut : ctx ∉ contexts)
    (nodesOut : ∀ a ∈ h.vmPool ctx :: rest, a ∉ nodes) (arraysOut : ∀ b ∈ bufs, b.block ∉ arrays) :
    PoolOwned h' ctx bufs rest := by
  obtain ⟨ctxLive, ctxCell⟩ := same.context ctx inv.ctxLive ctxOut
  have array : ∀ b ∈ bufs, b.block ∈ h'.buffers.live ∧
      h'.buffers.cell b.block = h.buffers.cell b.block := fun b hb =>
    same.array b.block (inv.buffers b hb).live (arraysOut b hb)
  apply inv.transport ctxLive ctxCell
  · intro a member
    exact same.node a (inv.pool.live a member) (nodesOut a member)
  · intro b hb
    exact (array b hb).1
  · intro b hb
    rw [(array b hb).2]
  · intro b hb p block
    rw [Heap.buffer, Heap.buffer, block, (array b hb).2]

theorem LegalInv.outside (legal : LegalInv h ctx bufs rest)
    (same : h.Outside h' nodes arrays contexts) (ctxOut : ctx ∉ contexts)
    (nodesOut : ∀ a ∈ h.vmPool ctx :: rest, a ∉ nodes) (arraysOut : ∀ b ∈ bufs, b.block ∉ arrays) :
    LegalInv h' ctx bufs rest ∧ h'.vmPool ctx = h.vmPool ctx ∧ h'.sentinel ctx = h.sentinel ctx := by
  have vmPool : h'.vmPool ctx = h.vmPool ctx :=
    congrArg ComputeContext.vmPool (same.context ctx legal.owned.ctxLive ctxOut).2
  have node : ∀ a ∈ h.vmPool ctx :: rest, h'.nodes.cell a = h.nodes.cell a := fun a member =>
    (same.node a (legal.owned.pool.live a member) (nodesOut a member)).2
  have sentinel : h'.sentinel ctx = h.sentinel ctx := by
    rw [Heap.sentinel, vmPool, node _ List.mem_cons_self]
    rfl
  refine ⟨legal.congr (legal.owned.outside same ctxOut nodesOut arraysOut) sentinel ?_ ?_, vmPool,
    sentinel⟩
  · refine Heap.entries_congr fun a member => ?_
    rw [node a (List.mem_cons_of_mem _ member)]
  · intro b hb p block
    have array := (same.array b.block (legal.owned.buffers b hb).live (arraysOut b hb)).2
    rw [Heap.buffer, Heap.buffer, block, array]

/-! ## Allocating and releasing -/

/-- The pool of the context itself keeps its nodes but those of the buffer. -/
theorem PoolOwned.poolFree_outside (inv : PoolOwned h ctx bufs rest) {bo : BufPtr} (hbo : bo ∈ bufs)
    (freed : computePoolFree h ctx bo = .ok h') :
    h.Outside h' {a | a ∈ h.vmPool ctx :: rest} ∅ ∅ ∧ h'.vmPool ctx = h.vmPool ctx := by
  obtain ⟨h₁, rest₁, run, -, shrank, -⟩ := inv.poolFree hbo
  obtain rfl : h₁ = h' := by simpa [freed] using run.symm
  refine ⟨shrank.outside fun a member => ?_, ?_⟩
  · exact List.mem_cons_of_mem _ (List.mem_of_mem_filter member)
  · exact Heap.vmPool_congr shrank.contexts ctx

variable {κ : Type} {drm : Drm κ} {w w' : World κ}

theorem computeFreeGpuBuffer_outside (inv : PoolOwned w.heap ctx bufs rest) {bo : BufPtr}
    (hbo : bo ∈ bufs) (released : computeFreeGpuBuffer drm w bo = .ok w') :
    w.heap.Outside w'.heap {a | a ∈ w.heap.vmPool ctx :: rest} {bo.block} ∅ := by
  have owner := (inv.buffers bo hbo).ctx
  simp only [computeFreeGpuBuffer, Heap.loadBuffer_eq (inv.validBuffer_self hbo), ok_bind, owner]
    at released
  split at released
  · obtain ⟨h₁, freed, released⟩ := bind_eq_ok.mp released
    obtain ⟨c, -, released⟩ := bind_eq_ok.mp released
    obtain ⟨h₂, dropped, final⟩ := bind_eq_ok.mp released
    obtain rfl := Except.ok.inj final
    have pooled := (inv.poolFree_outside hbo freed).1
    exact (pooled.mono subset_rfl (Set.empty_subset _) subset_rfl).append
      ((Heap.freeBuffer_outside dropped).mono (Set.empty_subset _) subset_rfl subset_rfl)
  · obtain ⟨c, -, released⟩ := bind_eq_ok.mp released
    obtain ⟨h₂, dropped, final⟩ := bind_eq_ok.mp released
    obtain rfl := Except.ok.inj final
    exact (Heap.freeBuffer_outside dropped).mono (Set.empty_subset _) subset_rfl subset_rfl

theorem computeAllocGpuBuffer_outside (libc : Libc) {size domain : Nat} {a : Int}
    {r : Option BufPtr} (inv : PoolOwned w.heap ctx bufs rest) (ok : RequestOk size)
    (foreign : (w.heap.sentinel ctx).parentBo ≠ ⟨libc.buffer.choose w.heap.buffers.live, 0⟩)
    (returned : computeAllocGpuBuffer drm libc w ctx size domain a = .ok (r, w')) :
    w.heap.Outside w'.heap {a | a ∈ w.heap.vmPool ctx :: rest} ∅ ∅ := by
  obtain ⟨result, handles, w₁, run, new, outcome⟩ :=
    @computeAllocFragmentedBuffer_spec κ drm ctx size domain libc w a ok inv.ctxLive
  rcases outcome with ⟨rfl, count, -⟩ | ⟨rfl, -⟩
  swap
  · simp [computeAllocGpuBuffer, run] at returned
  generalize (⟨libc.buffer.choose w.heap.buffers.live, 0⟩ : BufPtr) = bo at foreign run new
  obtain ⟨h', rest', news, place, alloc, grew, others, members⟩ :=
    inv.allocated_grew libc ok foreign new count
  have member : bo ∈ insert bo bufs := Finset.mem_insert_self bo bufs
  obtain ⟨ret, k₂, map, -⟩ := computeVmMap_spec drm (w := { heap := h', kernel := w₁.kernel })
    0 radeonVmPageSnooped alloc.owned.ctxLive (alloc.owned.validBuffer_self member)
    (fun j => alloc.owned.validBuffer member)
  have isNew : ∀ {a}, a ∈ ({bo.block} : Set Addr) → a ∈ w.heap.buffers.live → a ∈ (∅ : Set Addr) :=
    fun same live => absurd (same ▸ live) new.fresh
  have placed : w.heap.Outside h' {a | a ∈ w.heap.vmPool ctx :: rest} ∅ ∅ :=
    (new.outside.mono (Set.empty_subset _) subset_rfl subset_rfl).trans (grew.outside others)
      (fun _ inPool _ => inPool) (fun _ => isNew) fun _ none _ => none
  simp only [computeAllocGpuBuffer, run, ok_bind, place, map] at returned
  split at returned
  · -- the buffer is taken out again, and its array freed
    obtain ⟨h₁, unpool, returned⟩ := bind_eq_ok.mp returned
    obtain ⟨h₂, clear, returned⟩ := bind_eq_ok.mp returned
    obtain ⟨w₃, free, final⟩ := bind_eq_ok.mp returned
    obtain ⟨-, rfl⟩ := Prod.mk.inj (Except.ok.inj final)
    obtain ⟨h₁', h₂', rest'', unpool', clear', free', -⟩ := alloc.undo drm inv ok k₂
    obtain rfl : h₁' = h₁ := by simpa [unpool] using unpool'.symm
    obtain rfl : h₂' = h₂ := by simpa [clear] using clear'.symm
    obtain rfl := Except.ok.inj (free.symm.trans free')
    have vmPool := Heap.vmPool_congr alloc.contexts ctx
    have taken : w.heap.Outside h₁' {a | a ∈ w.heap.vmPool ctx :: rest} ∅ ∅ := by
      refine placed.trans (alloc.owned.poolFree_outside member unpool).1 ?_
        (fun _ none _ => none) fun _ none _ => none
      intro a inPool live
      rcases List.mem_cons.mp inPool with rfl | inRest
      · rw [vmPool]
        exact List.mem_cons_self
      · rcases members a inRest with old | fresh
        · exact List.mem_cons_of_mem _ old
        · exact absurd (new.nodes ▸ live) (grew.fresh a fresh)
    have cleared := taken.trans (Heap.modifyBuffer_outside clear) (fun _ none _ => none.elim)
      (fun _ => isNew) fun _ none _ => none
    exact cleared.trans (Heap.dropArray_outside h₂' bo) (fun _ none _ => none.elim)
      (fun _ => isNew) fun _ none _ => none
  · obtain ⟨-, rfl⟩ := Prod.mk.inj (Except.ok.inj returned)
    exact placed

/-- A legal call that returns changes the pool of the context and its buffers. -/
theorem LegalInv.call_outside {s s' : Client κ}
    (inv : LegalInv s.world.heap ctx s.held rest) {c : Call} (legal : s.Legal ctx c)
    (run : s.call drm ctx c = .ok s') :
    s.world.heap.Outside s'.world.heap {a | a ∈ s.world.heap.vmPool ctx :: rest}
      {a | ∃ b ∈ s.held, b.block = a} ∅ := by
  cases c with
  | free bo =>
      obtain ⟨w', released, final⟩ := bind_eq_ok.mp run
      obtain rfl := Except.ok.inj final
      have own : ({bo.block} : Set Addr) ⊆ {a | ∃ b ∈ s.held, b.block = a} :=
        Set.singleton_subset_iff.mpr ⟨bo, legal, rfl⟩
      exact (computeFreeGpuBuffer_outside inv.owned legal released).mono subset_rfl own subset_rfl
  | alloc libc size domain alignment =>
      obtain ⟨word, foreign⟩ := legal
      obtain ⟨⟨result, w'⟩, returned, held⟩ := bind_eq_ok.mp run
      have ok := requestOk_of_alloc drm libc word returned
      have outside := (computeAllocGpuBuffer_outside libc inv.owned ok foreign returned).mono
        subset_rfl (Set.empty_subset {a | ∃ b ∈ s.held, b.block = a}) subset_rfl
      cases result with
      | none =>
          obtain rfl := Except.ok.inj held
          exact outside
      | some bo =>
          obtain rfl := Except.ok.inj held
          exact outside

end Calls

end RadeonsiCompute
