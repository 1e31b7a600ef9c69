import RadeonsiCompute.Context.Process
import RadeonsiCompute.Context.Release

/-!
# The reserved node over a whole run

The invariant of a process is that each of its contexts has a pool in order and
that no two have the same reserved node. The pools are then apart: a node of
one cannot be in another, since its owner names its context and only a reserved
node has nothing before it. So a call in one context is not seen in the others.
-/

namespace RadeonsiCompute

open Lib

/-- Every node but the first has one before it. -/
theorem IsPool.prev_ne_none {h : Heap} {head : Addr} {rest : List Addr}
    (pool : IsPool h head (head :: rest)) {a : Addr} (member : a ∈ rest) :
    (h.nodes.cell a).prev ≠ none := by
  obtain ⟨l₁, l₂, rfl⟩ := List.append_of_mem member
  have linked := pool.linked
  rw [← List.cons_append, Linked.append_cons_iff] at linked
  rw [linked.2.1, List.getLast?_cons]
  exact Option.some_ne_none _

theorem IsPool.prev_eq_none {h : Heap} {head : Addr} {rest : List Addr}
    (pool : IsPool h head (head :: rest)) : (h.nodes.cell head).prev = none :=
  pool.linked.1

/-- The pools of two contexts with different reserved nodes have no node in
common, and their buffers no array. -/
theorem PoolOwned.disjoint {h : Heap} {ctx ctx' : Addr} {held held' : Finset BufPtr}
    {rest rest' : List Addr} (owned : PoolOwned h ctx held rest)
    (owned' : PoolOwned h ctx' held' rest') (other : ctx ≠ ctx')
    (heads : h.vmPool ctx ≠ h.vmPool ctx') :
    (∀ a ∈ h.vmPool ctx :: rest, a ∉ {a | a ∈ h.vmPool ctx' :: rest'}) ∧
      ∀ b ∈ held, b.block ∉ {a | ∃ b ∈ held', b.block = a} := by
  have buffers : ∀ b ∈ held, ∀ b' ∈ held', b'.block ≠ b.block := by
    intro b hb b' hb' block
    have index := (owned.buffers b hb).index
    have index' := (owned'.buffers b' hb').index
    have same : b' = b := by
      cases b
      cases b'
      simp_all
    exact other ((owned.buffers b hb).ctx.symm.trans (same ▸ (owned'.buffers b' hb').ctx))
  constructor
  · intro a member member'
    rcases List.mem_cons.mp member with rfl | inRest
    · rcases List.mem_cons.mp member' with same | inRest'
      · exact heads same
      · exact owned'.pool.prev_ne_none inRest' owned.pool.prev_eq_none
    · rcases List.mem_cons.mp member' with rfl | inRest'
      · exact owned.pool.prev_ne_none inRest owned'.pool.prev_eq_none
      · -- a node in both pools would have its owner in both contexts
        have parent := (owned.owned _ (h.entry_mem inRest)).1
        have parent' := (owned'.owned _ (h.entry_mem inRest')).1
        exact buffers _ parent _ parent' rfl
  · rintro b hb ⟨b', hb', block⟩
    exact buffers b hb b' hb' block

namespace Process

variable {κ : Type} {drm : Drm κ} {view : Nat → κ → Kernel} {s s' : Process κ}

structure Inv (s : Process κ) : Prop where
  legal : ∀ ctx ∈ s.contexts, ∃ rest, LegalInv s.heap ctx (s.held ctx) rest
  heads : ∀ ctx ∈ s.contexts, ∀ ctx' ∈ s.contexts, s.heap.vmPool ctx = s.heap.vmPool ctx' →
    ctx = ctx'

/-- The context `ctx` has its reserved node in `h'` as it has it in `s`. -/
def Keeps (s : Process κ) (h' : Heap) (ctx : Addr) : Prop :=
  h'.vmPool ctx = s.heap.vmPool ctx ∧ h'.sentinel ctx = s.heap.sentinel ctx

/-- Contexts that keep their reserved nodes still have different ones. -/
theorem Inv.apart (inv : s.Inv) {h' : Heap} {a b : Addr} (member : a ∈ s.contexts)
    (member' : b ∈ s.contexts) (kept : s.Keeps h' a) (kept' : s.Keeps h' b)
    (same : h'.vmPool a = h'.vmPool b) : a = b :=
  inv.heads a member b member' (kept.1.symm.trans (same.trans kept'.1))

/-- A change in the pool of `ctx` is not seen in the other contexts. -/
theorem Inv.other (inv : s.Inv) {h' : Heap} {ctx ctx' : Addr} {rest : List Addr}
    (inContexts : ctx ∈ s.contexts) (inContexts' : ctx' ∈ s.contexts) (other : ctx' ≠ ctx)
    (legal : LegalInv s.heap ctx (s.held ctx) rest) {contexts : Set Addr} (out : ctx' ∉ contexts)
    (same : s.heap.Outside h' {a | a ∈ s.heap.vmPool ctx :: rest}
      {a | ∃ b ∈ s.held ctx, b.block = a} contexts) :
    (∃ rest', LegalInv h' ctx' (s.held ctx') rest') ∧ s.Keeps h' ctx' := by
  obtain ⟨rest', legal'⟩ := inv.legal ctx' inContexts'
  have heads : s.heap.vmPool ctx' ≠ s.heap.vmPool ctx := fun equal =>
    other (inv.heads ctx' inContexts' ctx inContexts equal)
  obtain ⟨nodes, arrays⟩ := legal'.owned.disjoint legal.owned other heads
  obtain ⟨kept, vmPool, sentinel⟩ := legal'.outside same out nodes arrays
  exact ⟨⟨rest', kept⟩, vmPool, sentinel⟩

/-- A change outside every pool is not seen in any. -/
theorem Inv.all (inv : s.Inv) {h' : Heap} {ctx : Addr} (inContexts : ctx ∈ s.contexts)
    (same : s.heap.Outside h' ∅ ∅ ∅) :
    (∃ rest, LegalInv h' ctx (s.held ctx) rest) ∧ s.Keeps h' ctx := by
  obtain ⟨rest, legal⟩ := inv.legal ctx inContexts
  obtain ⟨kept, vmPool, sentinel⟩ := legal.outside same (Set.notMem_empty ctx)
    (fun _ _ => Set.notMem_empty _) fun _ _ => Set.notMem_empty _
  exact ⟨⟨rest, kept⟩, vmPool, sentinel⟩

theorem reuse_outside (h : Heap) (garbage : Addr → PoolNode) : h.Outside (reuse h garbage) ∅ ∅ ∅ :=
  ⟨fun _ live _ => ⟨live, if_pos live⟩, fun _ live _ => ⟨live, rfl⟩, fun _ live _ => ⟨live, rfl⟩⟩

/-! ## One call -/

/-- What a call leaves of the contexts the process still has. -/
def Kept (s s' : Process κ) : Prop :=
  ∀ ctx ∈ s.contexts, ctx ∈ s'.contexts → s.Keeps s'.heap ctx

/-- A call that changes nothing of any pool. -/
theorem Inv.elsewhere (inv : s.Inv) (contexts : s'.contexts = s.contexts)
    (held : s'.held = s.held) (outside : s.heap.Outside s'.heap ∅ ∅ ∅) : s'.Inv ∧ s.Kept s' := by
  have all := fun ctx (member : ctx ∈ s.contexts) => inv.all member outside
  refine ⟨⟨?_, ?_⟩, fun ctx member _ => (all ctx member).2⟩
  · intro ctx member
    rw [contexts] at member
    rw [held]
    exact (all ctx member).1
  · intro a member b member'
    rw [contexts] at member member'
    exact inv.apart member member' (all a member).2 (all b member').2

theorem Inv.reuse (inv : s.Inv) (garbage : Addr → PoolNode)
    (run : s.call drm (.reuse garbage) = .ok s') : s'.Inv ∧ s.Kept s' := by
  obtain rfl := Except.ok.inj run
  exact inv.elsewhere rfl rfl (reuse_outside s.heap garbage)

/-- A call in one context. -/
theorem Inv.buffer (inv : s.Inv) (honest : drm.Honest view) {ctx : Addr} {c : Call}
    (inContexts : ctx ∈ s.contexts) (legal : (s.client ctx).Legal ctx c)
    (run : s.call drm (.buffer ctx c) = .ok s') : s'.Inv ∧ s.Kept s' := by
  obtain ⟨client, step, final⟩ := bind_eq_ok.mp run
  obtain rfl := Except.ok.inj final
  obtain ⟨rest, own⟩ := inv.legal ctx inContexts
  obtain ⟨after, sentinel⟩ := @LegalInv.call κ drm view honest ctx (s.client ctx) client rest own c
    legal step
  have outside := @LegalInv.call_outside ctx rest κ drm (s.client ctx) client own c legal step
  have vmPool : client.world.heap.vmPool ctx = s.heap.vmPool ctx :=
    congrArg ComputeContext.vmPool (outside.context ctx own.owned.ctxLive (Set.notMem_empty ctx)).2
  have each : ∀ ctx' ∈ s.contexts,
      (∃ rest', LegalInv client.world.heap ctx' (Function.update s.held ctx client.held ctx') rest') ∧
        s.Keeps client.world.heap ctx' := by
    intro ctx' member
    by_cases same : ctx' = ctx
    · subst same
      rw [Function.update_self]
      exact ⟨after, vmPool, sentinel⟩
    · rw [Function.update_of_ne same]
      exact inv.other inContexts member same own (Set.notMem_empty ctx') outside
  refine ⟨⟨fun ctx' member => (each ctx' member).1, ?_⟩, fun ctx' member _ => (each ctx' member).2⟩
  intro a member b member'
  exact inv.apart member member' (each a member).2 (each b member').2

/-- A new context gets a reserved node that no other has. -/
theorem Inv.create (inv : s.Inv) {o : Outcomes} {libc : ContextLibc} {drmDevfile busid : List Byte}
    (run : s.call drm (.create o libc drmDevfile busid) = .ok s') : s'.Inv ∧ s.Kept s' := by
  obtain ⟨⟨result, session⟩, step, final⟩ := bind_eq_ok.mp run
  rcases computeCreateContext_heap step with ⟨rfl, outside⟩ | ⟨rfl, fd, create⟩
  · obtain rfl := Except.ok.inj final
    exact inv.elsewhere rfl rfl outside
  · obtain rfl := Except.ok.inj final
    have fresh := libc.context.fresh s.session.heap.contexts.live
    generalize libc.context.choose s.session.heap.contexts.live = new at fresh create ⊢
    have newLive : new ∈ (s.session.allocated new fd).contexts.live := Finset.mem_insert_self _ _
    have reserved : o.vaStart.write 0 < 2 ^ 32 := o.vaStart.write_lt (Nat.two_pow_pos 32)
    have legal := LegalInv.create newLive (by omega) create
    rw [createVmPool_eq _ _ newLive] at create
    -- the pool of the new context is a node that was not allocated
    have freshNode := libc.node.fresh s.session.heap.nodes.live
    have heap : (s.session.allocated new fd).withPool new
        (libc.node.choose s.session.heap.nodes.live) (o.vaStart.write 0) = session.heap :=
      Except.ok.inj create
    have outside : s.session.heap.Outside session.heap ∅ ∅ ∅ := by
      have pool := Heap.withPool_outside (h := s.session.allocated new fd) freshNode new
        (o.vaStart.write 0)
      rw [heap] at pool
      exact (Session.allocated_outside fresh fd).trans pool (fun _ none _ => none)
        (fun _ none _ => none) fun a same live => absurd (same ▸ live) fresh
    have all := fun ctx (member : ctx ∈ s.contexts) => inv.all member outside
    have old : ∀ ctx ∈ s.contexts, ctx ≠ new := by
      rintro ctx member rfl
      obtain ⟨rest, legal⟩ := inv.legal ctx member
      exact fresh legal.owned.ctxLive
    have oldHead : ∀ ctx ∈ s.contexts, session.heap.vmPool ctx ≠ session.heap.vmPool new := by
      intro ctx member same
      obtain ⟨rest, legal'⟩ := inv.legal ctx member
      have head : session.heap.vmPool new = libc.node.choose s.session.heap.nodes.live := by
        rw [← heap]
        simp [Heap.withPool, Heap.vmPool]
      rw [head, (all ctx member).2.1] at same
      exact freshNode (same ▸ legal'.owned.pool.live _ List.mem_cons_self)
    refine ⟨⟨fun ctx member => ?_, ?_⟩, fun ctx member _ => (all ctx member).2⟩
    · show ∃ rest, LegalInv session.heap ctx (Function.update s.held new ∅ ctx) rest
      rcases Finset.mem_insert.mp member with isNew | inOld
      · rw [isNew, Function.update_self]
        exact ⟨[], legal⟩
      · rw [Function.update_of_ne (old ctx inOld)]
        exact (all ctx inOld).1
    · intro a member b member' same
      rcases Finset.mem_insert.mp member with isNew | inOld
      · rcases Finset.mem_insert.mp member' with isNew' | inOld'
        · rw [isNew, isNew']
        · exact absurd (isNew ▸ same).symm (oldHead b inOld')
      · rcases Finset.mem_insert.mp member' with isNew' | inOld'
        · exact absurd (isNew' ▸ same) (oldHead a inOld)
        · exact inv.apart inOld inOld' (all a inOld).2 (all b inOld').2 same

/-- The end of a context. -/
theorem Inv.freeContext (inv : s.Inv) {ctx : Addr} (inContexts : ctx ∈ s.contexts)
    (run : s.call drm (.freeContext ctx) = .ok s') : s'.Inv ∧ s.Kept s' := by
  obtain ⟨c, -, run⟩ := bind_eq_ok.mp run
  obtain ⟨w, freed, final⟩ := bind_eq_ok.mp run
  obtain rfl := Except.ok.inj final
  obtain ⟨rest, own⟩ := inv.legal ctx inContexts
  have outside := own.computeFreeContext_outside freed
  have each : ∀ ctx' ∈ s.contexts, ctx' ≠ ctx →
      (∃ rest', LegalInv w.heap ctx' (s.held ctx') rest') ∧ s.Keeps w.heap ctx' :=
    fun ctx' member other => inv.other inContexts member other own other outside
  refine ⟨⟨fun ctx' member => ?_, ?_⟩, fun ctx' _ member => ?_⟩
  · obtain ⟨other, member⟩ := Finset.mem_erase.mp member
    show ∃ rest', LegalInv w.heap ctx' (Function.update s.held ctx ∅ ctx') rest'
    rw [Function.update_of_ne other]
    exact (each ctx' member other).1
  · intro a member b member'
    obtain ⟨other, member⟩ := Finset.mem_erase.mp member
    obtain ⟨other', member'⟩ := Finset.mem_erase.mp member'
    exact inv.apart member member' (each a member other).2 (each b member' other').2
  · obtain ⟨other, member⟩ := Finset.mem_erase.mp member
    exact (each ctx' member other).2

/-- Any call that the system allows. -/
theorem Inv.step (inv : s.Inv) (honest : drm.Honest view) {c : ProcessCall}
    (step : (processSystem drm).step s c s') : s'.Inv ∧ s.Kept s' := by
  obtain ⟨permitted, spared, run⟩ := step
  cases c with
  | create o libc drmDevfile busid => exact inv.create run
  | freeContext ctx => exact inv.freeContext permitted run
  | reuse garbage => exact inv.reuse garbage run
  | buffer ctx c =>
      cases c with
      | alloc libc size domain alignment =>
          have legal : (s.client ctx).Legal ctx (.alloc libc size domain alignment) :=
            ⟨permitted.2, spared⟩
          exact inv.buffer honest permitted.1 legal run
      | free bo =>
          have legal : (s.client ctx).Legal ctx (.free bo) := permitted.2
          exact inv.buffer honest permitted.1 legal run

theorem inductive_inv (honest : drm.Honest view) : (processSystem drm).Inductive Inv where
  init s start := by
    have none : s.contexts = ∅ := start
    constructor
    · intro ctx member
      rw [none] at member
      exact absurd member (Finset.notMem_empty ctx)
    · intro ctx member
      rw [none] at member
      exact absurd member (Finset.notMem_empty ctx)
  step _ _ _ inv step := (inv.step honest step).1

/-! ## The reserved node -/

/-- The reserved node of a context is first in its pool and has nothing before
it; no release of a buffer matches it, unlinks it or frees it, also when the
whole context is freed; and every other range is above the reserved one. -/
structure Reserved (s : Process κ) (drm : Drm κ) (ctx : Addr) : Prop where
  pool : IsPool s.heap (s.heap.vmPool ctx) (s.heap.poolNodes ctx)
  prev : (s.heap.nodes.cell (s.heap.vmPool ctx)).prev = none
  base : (s.heap.sentinel ctx).va = 0
  above : ∀ a ∈ (s.heap.poolNodes ctx).tail,
    (s.heap.sentinel ctx).size ≤ (s.heap.nodes.cell a).va
  unmatched : ∀ bo ∈ s.held ctx, (s.heap.sentinel ctx).parentBo ≠ bo ∧
    ∃ h', computePoolFree s.heap ctx bo = .ok h' ∧ s.Keeps h' ctx ∧
      IsPool h' (s.heap.vmPool ctx) (h'.poolNodes ctx)
  teardown : ∃ freed w', Teardown drm ctx (s.client ctx).world freed w' ∧
    freed.toFinset = s.held ctx ∧ w'.heap.poolNodes ctx = [s.heap.vmPool ctx] ∧
    ∃ w'', computeFreeContext drm (s.client ctx).world ctx = .ok w''

theorem Inv.reserved (inv : s.Inv) {ctx : Addr} (inContexts : ctx ∈ s.contexts) :
    s.Reserved drm ctx := by
  obtain ⟨rest, legal⟩ := inv.legal ctx inContexts
  have pool := legal.owned.pool
  have nodes : s.heap.poolNodes ctx = s.heap.vmPool ctx :: rest := pool.poolNodes_eq
  refine ⟨by rw [nodes]; exact pool, pool.prev_eq_none, legal.layout.base, ?_, ?_, ?_⟩
  · rw [nodes]
    intro a member
    have before := (List.pairwise_cons.mp legal.layout.ordered).1 _ (s.heap.entry_mem member)
    unfold Before at before
    rwa [legal.layout.base, Nat.zero_add] at before
  · intro bo hbo
    obtain ⟨h', rest', run, owned, shrank, sentinel, -⟩ := legal.owned.poolFree hbo
    have vmPool := Heap.vmPool_congr shrank.contexts ctx
    refine ⟨fun same => legal.owned.foreign (same ▸ hbo), h', run, ⟨vmPool, sentinel⟩, ?_⟩
    have after : h'.poolNodes ctx = h'.vmPool ctx :: rest' := owned.pool.poolNodes_eq
    rw [after, ← vmPool]
    exact owned.pool
  · obtain ⟨freed, w', teardown, -, all, -, emptied, outside, returns⟩ :=
      @LegalInv.freeContext_returns κ drm ctx (s.held ctx) rest (s.client ctx).world legal
    have vmPool : w'.heap.vmPool ctx = s.heap.vmPool ctx :=
      congrArg ComputeContext.vmPool
        (outside.context ctx legal.owned.ctxLive (Set.notMem_empty ctx)).2
    have only : w'.heap.poolNodes ctx = [w'.heap.vmPool ctx] := emptied.owned.pool.poolNodes_eq
    exact ⟨freed, w', teardown, all, by rw [only, vmPool], returns⟩

/-- A context that a call returned has the range the driver asked for reserved. -/
theorem reserved_of_create {o : Outcomes} {libc : ContextLibc} {drmDevfile busid : List Byte}
    (run : s.call drm (.create o libc drmDevfile busid) = .ok s') {ctx : Addr}
    (old : ctx ∉ s.contexts) (new : ctx ∈ s'.contexts) :
    (s'.heap.sentinel ctx).size = o.vaStart.write 0 + 4096 := by
  have reserved : o.vaStart.write 0 < 2 ^ 32 := o.vaStart.write_lt (Nat.two_pow_pos 32)
  obtain ⟨⟨result, session⟩, step, final⟩ := bind_eq_ok.mp run
  rcases computeCreateContext_heap step with ⟨rfl, -⟩ | ⟨rfl, fd, create⟩
  · obtain rfl := Except.ok.inj final
    exact absurd new old
  · obtain rfl := Except.ok.inj final
    rcases Finset.mem_insert.mp new with rfl | member
    · have newLive : libc.context.choose s.session.heap.contexts.live ∈ (s.session.allocated
          (libc.context.choose s.session.heap.contexts.live) fd).contexts.live :=
        Finset.mem_insert_self _ _
      obtain ⟨h', run', -, size, -⟩ := createVmPool_spec libc.toLibc newLive
        (show o.vaStart.write 0 + 4096 < 2 ^ 64 by omega)
      obtain rfl : h' = session.heap := by simpa [create] using run'.symm
      exact size
    · exact absurd member old

end Process

/-- **The reserved node survives.** In every state of every run in which
`calloc` never returns, to an allocation of a context, the pointer that its
reserved node holds uninitialised, the reserved node of each context is as
`Reserved` says; and no call changes it while the context exists. -/
theorem reservedNode_survives {κ : Type} {drm : Drm κ} {view : Nat → κ → Kernel}
    (honest : drm.Honest view) {s : Process κ} (reach : (processSystem drm).Reachable s) :
    (∀ ctx ∈ s.contexts, s.Reserved drm ctx) ∧
      ∀ c s', (processSystem drm).step s c s' → s.Kept s' ∧
        ∀ o libc drmDevfile busid, c = .create o libc drmDevfile busid →
          ∀ ctx ∈ s'.contexts, ctx ∉ s.contexts →
            (s'.heap.sentinel ctx).size = o.vaStart.write 0 + 4096 := by
  have inv := (Process.inductive_inv honest).invariant reach
  refine ⟨fun ctx member => inv.reserved member, fun c s' step => ⟨(inv.step honest step).2, ?_⟩⟩
  rintro o libc drmDevfile busid rfl ctx new old
  exact Process.reserved_of_create step.2.2 old new

namespace Process

variable {κ : Type} (drm : Drm κ)

/-- A process that has done nothing yet. -/
def empty (k : κ) : Process κ where
  session := .empty
  kernel := k
  contexts := ∅
  held _ := ∅

/-- A call that stops the run when it is not permitted or does not return. -/
def permitted (s : Process κ) (c : ProcessCall) : Option (Process κ) :=
  if s.Permitted c then (s.call drm c).toOption else none

/-- A permitted call that `calloc` is not in the way of. -/
def spared (s : Process κ) (c : ProcessCall) : Option (Process κ) :=
  if s.Spared c then permitted drm s c else none

theorem step_of_spared {s s' : Process κ} {c : ProcessCall} (run : spared drm s c = some s') :
    (processSystem drm).step s c s' := by
  unfold spared permitted at run
  by_cases spare : s.Spared c
  · by_cases permit : s.Permitted c
    · rw [if_pos spare, if_pos permit] at run
      exact ⟨permit, spare, toOption_eq_some.mp run⟩
    · rw [if_neg permit, ite_self] at run
      exact nomatch run
  · rw [if_neg spare] at run
    exact nomatch run

end Process

/-- A context on a device that opens as descriptor 3. -/
abbrev ProcessCall.open : ProcessCall := .create (.granted 3 1) .above [] []

/-- Two contexts with a buffer each. -/
theorem reservedNode_survives_twoContexts :
    ∃ s : Process SoundKernel, [ProcessCall.open, .buffer 1 (.alloc .above 4096 2 4096), .open,
        .buffer 2 (.alloc .above 4096 2 4096)].foldlM (Process.spared (limitedDrm .above 10))
          (.empty .empty) = some s ∧
      s.Reserved (limitedDrm .above 10) 1 ∧ s.Reserved (limitedDrm .above 10) 2 := by
  obtain ⟨s, run, contexts⟩ := Option.map_eq_some_iff.mp (show
    ([ProcessCall.open, .buffer 1 (.alloc .above 4096 2 4096), .open,
      .buffer 2 (.alloc .above 4096 2 4096)].foldlM (Process.spared (limitedDrm .above 10))
        (.empty .empty)).map (fun s => decide (1 ∈ s.contexts ∧ 2 ∈ s.contexts)) = some true by
      decide +kernel)
  obtain ⟨first, second⟩ := of_decide_eq_true contexts
  have start : (processSystem (limitedDrm .above 10)).Reachable (.empty .empty) := .init rfl
  have reach := TSys.Reachable.foldlM (fun _ _ _ => Process.step_of_spared (limitedDrm .above 10))
    _ start run
  obtain ⟨reserved, -⟩ := reservedNode_survives (limitedDrm_honest .above 10) reach
  exact ⟨s, run, reserved 1 first, reserved 2 second⟩

/-- A second context whose reserved node and whose buffer reuse the blocks of
the first one's buffer: the release follows the missing `prev`. -/
theorem not_reservedNode_survives_reusedBlocks :
    ∃ s : Process SoundKernel, [ProcessCall.open, .buffer 1 (.alloc .above 4096 2 4096),
        .buffer 1 (.free ⟨1, 0⟩), .open, .buffer 2 (.alloc .above 4096 2 4096)].foldlM
          (Process.permitted (limitedDrm .above 10)) (.empty .empty) = some s ∧
      ⟨1, 0⟩ ∈ s.held 2 ∧ (s.heap.sentinel 2).parentBo = ⟨1, 0⟩ ∧
      s.call (limitedDrm .above 10) (.buffer 2 (.free ⟨1, 0⟩)) = .error .nullDeref := by
  obtain ⟨s, run, facts⟩ := Option.map_eq_some_iff.mp (show
    ([ProcessCall.open, .buffer 1 (.alloc .above 4096 2 4096),
      .buffer 1 (.free ⟨1, 0⟩), .open, .buffer 2 (.alloc .above 4096 2 4096)].foldlM
        (Process.permitted (limitedDrm .above 10)) (.empty .empty)).map (fun s =>
          (decide (⟨1, 0⟩ ∈ s.held 2), (s.heap.sentinel 2).parentBo,
            faultOf (s.call (limitedDrm .above 10) (.buffer 2 (.free ⟨1, 0⟩))))) =
      some (true, ⟨1, 0⟩, some .nullDeref) by decide +kernel)
  obtain ⟨held, facts⟩ := Prod.mk.inj facts
  obtain ⟨stale, fault⟩ := Prod.mk.inj facts
  exact ⟨s, run, of_decide_eq_true held, stale, faultOf_eq_some.mp fault⟩

end RadeonsiCompute
