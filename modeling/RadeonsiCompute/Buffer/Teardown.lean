import RadeonsiCompute.Buffer.Frame

/-!
# Freeing a context

`compute_free_context` frees whatever buffer the first node after the reserved
one names, until there is none. The fragments of a buffer stay side by side
with the first in front, so that node always names the first fragment of a live
buffer, and each buffer is freed once. The display and the descriptor that the
function closes at the end are not part of the heap.
-/

namespace RadeonsiCompute

open Lib

variable {κ : Type}

/-- `ctx->vm_pool->next->bo`, or `none` when `ctx->vm_pool->next` is null. -/
def nextBuffer (h : Heap) (ctx : Addr) : Except Fault (Option BufPtr) := do
  let c ← h.contexts.load ctx
  let pool ← h.nodes.load c.vmPool
  match pool.next with
  | none => .ok none
  | some n => do
      let node ← h.nodes.load n
      .ok (some node.bo)

/-- The loop of `compute_free_context`. Each round frees an allocated array or
faults, so a loop that outlives the arrays has no end. -/
def freeContextLoop (drm : Drm κ) (ctx : Addr) : Nat → World κ → Except Fault (World κ)
  | 0, w => do
      match ← nextBuffer w.heap ctx with
      | none => .ok w
      | some _ => .error .diverges
  | fuel + 1, w => do
      match ← nextBuffer w.heap ctx with
      | none => .ok w
      | some bo => do
          let w ← computeFreeGpuBuffer drm w bo
          freeContextLoop drm ctx fuel w

def computeFreeContext (drm : Drm κ) (w : World κ) (ctx : Addr) : Except Fault (World κ) := do
  let w ← freeContextLoop drm ctx w.heap.buffers.live.card w
  let c ← w.heap.contexts.load ctx
  let nodes ← w.heap.nodes.free c.vmPool
  let contexts ← w.heap.contexts.free ctx
  .ok { w with heap := { w.heap with nodes, contexts } }

/-- The rounds of the loop, with the pointers passed to
`compute_free_gpu_buffer` in order. -/
inductive Teardown (drm : Drm κ) (ctx : Addr) : World κ → List BufPtr → World κ → Prop
  | done {w} : nextBuffer w.heap ctx = .ok none → Teardown drm ctx w [] w
  | free {w w' w'' bo freed} : nextBuffer w.heap ctx = .ok (some bo) →
      computeFreeGpuBuffer drm w bo = .ok w' → Teardown drm ctx w' freed w'' →
      Teardown drm ctx w (bo :: freed) w''

/-- The rounds are what the loop does. -/
theorem Teardown.loop {drm : Drm κ} {ctx : Addr} {w w' : World κ} {freed : List BufPtr}
    (teardown : Teardown drm ctx w freed w') :
    ∀ {fuel : Nat}, freed.length ≤ fuel → freeContextLoop drm ctx fuel w = .ok w' := by
  induction teardown with
  | done none =>
      intro fuel _
      cases fuel with
      | zero => simp only [freeContextLoop, none, ok_bind]
      | succ fuel => simp only [freeContextLoop, none, ok_bind]
  | free next run _ ih =>
      intro fuel enough
      rw [List.length_cons] at enough
      cases fuel with
      | zero => omega
      | succ fuel =>
          simp only [freeContextLoop, next, ok_bind, run]
          apply ih
          omega

section

variable {drm : Drm κ} {ctx : Addr} {held : Finset BufPtr} {rest : List Addr}

/-- What the loop condition and the loop body read. -/
theorem PoolOwned.nextBuffer_eq {h : Heap} (inv : PoolOwned h ctx held rest) :
    nextBuffer h ctx = .ok ((h.entries rest).head?.map PoolEntry.bo) := by
  have headLive := inv.pool.live _ List.mem_cons_self
  have linked : Linked (fun a => (h.nodes.cell a).next) (fun a => (h.nodes.cell a).prev) none
      ([] ++ h.vmPool ctx :: rest) none := inv.pool.linked
  have next : (h.nodes.cell (h.vmPool ctx)).next = rest.head? := linked.next_eq
  unfold Heap.vmPool at headLive next
  simp only [nextBuffer, Store.load_eq inv.ctxLive, ok_bind, Store.load_eq headLive, next]
  cases rest with
  | nil => rfl
  | cons a rest =>
      have live := inv.pool.live a (by simp)
      simp only [List.head?_cons, Store.load_eq live, ok_bind, Heap.entries_cons, Option.map_some]

/-- No node is left exactly when no buffer is. -/
theorem PoolOwned.held_eq_empty {h : Heap} (inv : PoolOwned h ctx held []) : held = ∅ := by
  refine Finset.eq_empty_of_forall_notMem fun b hb => ?_
  obtain ⟨e, member, -⟩ := inv.listed b hb 0 (inv.buffers b hb).positive
  exact absurd member (by simp)

/-- The buffers held are distinct allocated arrays. -/
theorem PoolOwned.card_le {h : Heap} (inv : PoolOwned h ctx held rest) :
    held.card ≤ h.buffers.live.card := by
  apply Finset.card_le_card_of_injOn BufPtr.block
  · intro b hb
    exact (inv.buffers b hb).live
  · intro b hb b' hb' same
    exact inv.eq_of_block hb hb' same

/-- One round frees a buffer that is held: the first node is the first fragment
of one. -/
theorem LegalInv.round {a : Addr} {w : World κ} (legal : LegalInv w.heap ctx held (a :: rest)) :
    ∃ bo ∈ held, ∃ w' rest', nextBuffer w.heap ctx = .ok (some bo) ∧
      computeFreeGpuBuffer drm w bo = .ok w' ∧ LegalInv w'.heap ctx (held.erase bo) rest' ∧
      w.heap.Outside w'.heap {x | x ∈ w.heap.vmPool ctx :: a :: rest} {bo.block} ∅ ∧
      w'.heap.vmPool ctx = w.heap.vmPool ctx ∧ ∀ x ∈ rest', x ∈ a :: rest := by
  have first : (w.heap.nodes.cell a).bo = (w.heap.nodes.cell a).parentBo := legal.stacked.head rfl
  have owner := (legal.owned.owned _ (w.heap.entry_mem List.mem_cons_self)).1
  rw [← first] at owner
  have next := legal.owned.nextBuffer_eq
  generalize same : (w.heap.nodes.cell a).bo = bo at owner
  rw [Heap.entries_cons, List.head?_cons, Option.map_some, same] at next
  obtain ⟨h', rest', run, released, sub⟩ :=
    computeFreeGpuBuffer_released drm legal.owned owner (legal.inv.va_ne_zero owner)
  have outside := computeFreeGpuBuffer_outside legal.owned owner run
  exact ⟨bo, owner, _, rest', next, run, legal.free released, outside,
    Heap.vmPool_congr released.contexts ctx, sub⟩

/-- From a pool in order, the rounds free every buffer held, each once, and
touch nothing else. -/
theorem LegalInv.teardown (n : Nat) : ∀ {held : Finset BufPtr} {rest : List Addr} {w : World κ},
    held.card = n → LegalInv w.heap ctx held rest →
      ∃ freed w', Teardown drm ctx w freed w' ∧ freed.Nodup ∧ freed.toFinset = held ∧
        LegalInv w'.heap ctx ∅ [] ∧ w.heap.Outside w'.heap {a | a ∈ w.heap.vmPool ctx :: rest}
          {a | ∃ b ∈ held, b.block = a} ∅ := by
  induction n with
  | zero =>
      intro held rest w empty legal
      obtain rfl := Finset.card_eq_zero.mp empty
      cases rest with
      | nil =>
          exact ⟨[], w, .done legal.owned.nextBuffer_eq, List.nodup_nil, rfl, legal,
            Heap.Outside.refl _ _ _ _⟩
      | cons a rest =>
          have owner := (legal.owned.owned _ (w.heap.entry_mem List.mem_cons_self)).1
          exact absurd owner (Finset.notMem_empty _)
  | succ n ih =>
      intro held rest w count legal
      cases rest with
      | nil =>
          rw [legal.owned.held_eq_empty] at count
          exact absurd count (by simp)
      | cons a rest =>
          obtain ⟨bo, owner, w₁, rest', next, run, legal', here, vmPool, sub⟩ :=
            @LegalInv.round κ drm ctx held rest a w legal
          have left : (held.erase bo).card = n := by
            rw [Finset.card_erase_of_mem owner, count]
            rfl
          obtain ⟨freed, w', teardown, nodup, all, final, later⟩ := ih left legal'
          refine ⟨bo :: freed, w', .free next run teardown, ?_, ?_, final, ?_⟩
          · refine List.nodup_cons.mpr ⟨fun again => ?_, nodup⟩
            have member := List.mem_toFinset.mpr again
            rw [all] at member
            exact Finset.notMem_erase bo held member
          · rw [List.toFinset_cons, all, Finset.insert_erase owner]
          · have own : ({bo.block} : Set Addr) ⊆ {x | ∃ b ∈ held, b.block = x} :=
              Set.singleton_subset_iff.mpr ⟨bo, owner, rfl⟩
            refine (here.mono subset_rfl own subset_rfl).trans later ?_ ?_ fun _ none _ => none
            · intro x member _
              show x ∈ _ :: _
              rw [← vmPool]
              exact List.mem_cons.mpr ((List.mem_cons.mp member).imp_right (sub x))
            · rintro x ⟨b, hb, same⟩ _
              exact ⟨b, Finset.mem_of_mem_erase hb, same⟩

end

section FreeContext

variable {drm : Drm κ} {ctx : Addr} {held : Finset BufPtr} {rest : List Addr} {w w' : World κ}

/-- The loop of `compute_free_context` has rounds enough, and what is left can be freed. -/
theorem LegalInv.freeContext_returns (legal : LegalInv w.heap ctx held rest) :
    ∃ freed w', Teardown drm ctx w freed w' ∧ freed.Nodup ∧ freed.toFinset = held ∧
      freeContextLoop drm ctx w.heap.buffers.live.card w = .ok w' ∧ LegalInv w'.heap ctx ∅ [] ∧
      w.heap.Outside w'.heap {a | a ∈ w.heap.vmPool ctx :: rest} {a | ∃ b ∈ held, b.block = a} ∅ ∧
      ∃ w'', computeFreeContext drm w ctx = .ok w'' := by
  obtain ⟨freed, w', teardown, nodup, all, emptied, outside⟩ :=
    @LegalInv.teardown κ drm ctx held.card held rest w rfl legal
  have enough : freed.length ≤ w.heap.buffers.live.card := by
    rw [← List.toFinset_card_of_nodup nodup, all]
    exact legal.owned.card_le
  have loop := teardown.loop enough
  have headLive := emptied.owned.pool.live _ List.mem_cons_self
  unfold Heap.vmPool at headLive
  refine ⟨freed, w', teardown, nodup, all, loop, emptied, outside, ?_⟩
  simp only [computeFreeContext, loop, ok_bind, Store.load_eq emptied.owned.ctxLive,
    Store.free_eq headLive, Store.free_eq emptied.owned.ctxLive]
  exact ⟨_, rfl⟩

/-- Freeing a context touches its pool, its buffers and the context itself. -/
theorem LegalInv.computeFreeContext_outside (legal : LegalInv w.heap ctx held rest)
    (run : computeFreeContext drm w ctx = .ok w') :
    w.heap.Outside w'.heap {a | a ∈ w.heap.vmPool ctx :: rest} {a | ∃ b ∈ held, b.block = a}
      {ctx} := by
  obtain ⟨w₁, loop, run⟩ := bind_eq_ok.mp run
  obtain ⟨c, loaded, run⟩ := bind_eq_ok.mp run
  obtain ⟨nodes, poolFreed, run⟩ := bind_eq_ok.mp run
  obtain ⟨contexts, ctxFreed, final⟩ := bind_eq_ok.mp run
  obtain rfl := Except.ok.inj final
  obtain ⟨freed, w₂, teardown, -, -, loop₂, emptied, outside, -⟩ :=
    @LegalInv.freeContext_returns κ drm ctx held rest w legal
  obtain rfl : w₂ = w₁ := Except.ok.inj (loop₂.symm.trans loop)
  have vmPool : c.vmPool = w.heap.vmPool ctx := by
    rw [Store.load_eq emptied.owned.ctxLive] at loaded
    rw [← Except.ok.inj loaded, (outside.context ctx legal.owned.ctxLive (Set.notMem_empty _)).2]
    rfl
  have headLive := emptied.owned.pool.live _ List.mem_cons_self
  rw [Store.free_eq emptied.owned.ctxLive] at ctxFreed
  unfold Store.free at poolFreed
  split at poolFreed
  · obtain rfl := Except.ok.inj poolFreed
    obtain rfl := Except.ok.inj ctxFreed
    refine (outside.mono subset_rfl subset_rfl (Set.empty_subset {ctx})).append ?_
    refine ⟨fun a live other => ⟨Finset.mem_erase.mpr ⟨fun same => other ?_, live⟩, rfl⟩,
      fun _ live _ => ⟨live, rfl⟩, fun a live other => ⟨Finset.mem_erase.mpr ⟨other, live⟩, rfl⟩⟩
    rw [same, vmPool]
    exact List.mem_cons_self
  · exact nomatch poolFreed

end FreeContext

/-- **Teardown frees every buffer once.** In every state a run of legal calls
reaches, the loop of `compute_free_context` ends; the pointers it passes to
`compute_free_gpu_buffer` are the buffers held, each once; only the reserved
node is left, and the function returns. -/
theorem freeContext_everythingOnce {drm : Drm κ} {view : Nat → κ → Kernel}
    (honest : drm.Honest view) (ctx : Addr) {s : Client κ}
    (reach : (legalSystem drm ctx).Reachable s) :
    ∃ freed w', Teardown drm ctx s.world freed w' ∧ freed.Nodup ∧ freed.toFinset = s.held ∧
      freeContextLoop drm ctx s.world.heap.buffers.live.card s.world = .ok w' ∧
      w'.heap.poolNodes ctx = [w'.heap.vmPool ctx] ∧
      ∃ w'', computeFreeContext drm s.world ctx = .ok w'' := by
  obtain ⟨rest, legal⟩ := (Client.inductive_ordered ctx honest).invariant reach
  obtain ⟨freed, w', teardown, nodup, all, loop, final, -, returns⟩ :=
    @LegalInv.freeContext_returns κ drm ctx s.held rest s.world legal
  exact ⟨freed, w', teardown, nodup, all, loop, final.owned.pool.poolNodes_eq, returns⟩

/-- Two buffers, the first of two fragments, are freed by the context. -/
theorem freeContext_everythingOnce_twoBuffers :
    ∃ s freed w', Client.run (limitedDrm .above 10) (fun s c _ => s.Legal 0 c) .empty
        [.alloc .above 104857600 2 4096, .alloc .above 5000 2 4096] = some s ∧
      freed.toFinset = {⟨1, 0⟩, ⟨2, 0⟩} ∧ freed.Nodup ∧
      Teardown (limitedDrm .above 10) 0 s.world freed w' ∧
      w'.heap.poolNodes 0 = [w'.heap.vmPool 0] := by
  obtain ⟨s, run, held⟩ := Option.map_eq_some_iff.mp (show
    (Client.run (limitedDrm .above 10) (fun s c _ => s.Legal 0 c) .empty
      [.alloc .above 104857600 2 4096, .alloc .above 5000 2 4096]).map (fun s =>
        decide (s.held = {⟨1, 0⟩, ⟨2, 0⟩})) = some true by decide +kernel)
  have reach := Client.reachable_of_run (limitedDrm .above 10) (fun s c _ => s.Legal 0 c)
    (fun _ => True) trivial run
  obtain ⟨freed, w', teardown, nodup, all, -, nodes, -⟩ :=
    freeContext_everythingOnce (limitedDrm_honest .above 10) 0 reach
  exact ⟨s, freed, w', run, all.trans (of_decide_eq_true held), nodup, teardown, nodes⟩

end RadeonsiCompute
