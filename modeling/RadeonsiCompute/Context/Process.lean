import RadeonsiCompute.Buffer.Teardown
import RadeonsiCompute.Context.Create

/-!
# A process with several contexts

Contexts are created and freed, and buffers allocated and released in each of
them, in any order. `malloc` hands out freed blocks with what they last held,
and other code of the process may have written to them in between. The
reserved node of a context is never initialised beyond its range, so its
`parent_bo` is whatever the block held: `reservedNode_survives` shows that this
is harmless in every run in which `calloc` never returns that very pointer to
an allocation of that context.
-/

namespace RadeonsiCompute

open Lib

/-- A process: its memory and descriptors, the contexts it has, and the buffers
it holds in each. -/
structure Process (κ : Type) where
  session : Session
  kernel : κ
  contexts : Finset Addr
  held : Addr → Finset BufPtr

inductive ProcessCall
  | create (o : Outcomes) (libc : ContextLibc) (drmDevfile busid : List Byte)
  | buffer (ctx : Addr) (c : Call)
  | freeContext (ctx : Addr)
  | reuse (garbage : Addr → PoolNode)

namespace Process

variable {κ : Type}

def heap (s : Process κ) : Heap := s.session.heap

/-- The caller of one context. -/
def client (s : Process κ) (ctx : Addr) : Client κ where
  world := { heap := s.heap, kernel := s.kernel }
  held := s.held ctx

def setClient (s : Process κ) (ctx : Addr) (c : Client κ) : Process κ where
  session := { s.session with heap := c.world.heap }
  kernel := c.world.kernel
  contexts := s.contexts
  held := Function.update s.held ctx c.held

/-- Freed nodes are overwritten. -/
def reuse (h : Heap) (garbage : Addr → PoolNode) : Heap :=
  { h with nodes := { h.nodes with
      cell := fun a => if a ∈ h.nodes.live then h.nodes.cell a else garbage a } }

def call (drm : Drm κ) (s : Process κ) : ProcessCall → Except Fault (Process κ)
  | .create o libc drmDevfile busid => do
      let (result, session) ← computeCreateContext o libc s.session drmDevfile busid
      match result with
      | none => .ok { s with session }
      | some ctx => .ok { s with
          session, contexts := insert ctx s.contexts, held := Function.update s.held ctx ∅ }
  | .buffer ctx c => do
      let client ← (s.client ctx).call drm ctx c
      .ok (s.setClient ctx client)
  | .freeContext ctx => do
      let c ← s.heap.contexts.load ctx
      let w ← computeFreeContext drm (s.client ctx).world ctx
      -- the display and the descriptor, which `computeFreeContext` leaves out
      let session := match (s.session.info ctx).display with
        | some d => s.session.xCloseDisplay d
        | none => s.session
      let session := session.close c.fd
      .ok {
        session := { session with heap := w.heap }
        kernel := w.kernel
        contexts := s.contexts.erase ctx
        held := Function.update s.held ctx ∅ }
  | .reuse garbage => .ok { s with session := { s.session with heap := reuse s.heap garbage } }

/-- The calls a process may make: requests of any size and releases of buffers
held in a context it has, the end of such a context, and any creation. -/
def Permitted (s : Process κ) : ProcessCall → Prop
  | .buffer ctx (.alloc _ size _ _) => ctx ∈ s.contexts ∧ size < 2 ^ 64
  | .buffer ctx (.free bo) => ctx ∈ s.contexts ∧ bo ∈ s.held ctx
  | .freeContext ctx => ctx ∈ s.contexts
  | _ => True

/-- `calloc` does not return the pointer that the reserved node holds in its
uninitialised `parent_bo`. -/
def Spared (s : Process κ) : ProcessCall → Prop
  | .buffer ctx (.alloc libc _ _ _) => (s.heap.sentinel ctx).parentBo ≠
      ⟨libc.buffer.choose s.heap.buffers.live, 0⟩
  | _ => True

instance (s : Process κ) : (c : ProcessCall) → Decidable (s.Permitted c)
  | .create _ _ _ _ => inferInstanceAs (Decidable True)
  | .buffer ctx (.alloc _ size _ _) => inferInstanceAs (Decidable (ctx ∈ s.contexts ∧ size < 2 ^ 64))
  | .buffer ctx (.free bo) => inferInstanceAs (Decidable (ctx ∈ s.contexts ∧ bo ∈ s.held ctx))
  | .freeContext ctx => inferInstanceAs (Decidable (ctx ∈ s.contexts))
  | .reuse _ => inferInstanceAs (Decidable True)

instance (s : Process κ) : (c : ProcessCall) → Decidable (s.Spared c)
  | .buffer ctx (.alloc libc _ _ _) => inferInstanceAs (Decidable
      ((s.heap.sentinel ctx).parentBo ≠ ⟨libc.buffer.choose s.heap.buffers.live, 0⟩))
  | .buffer _ (.free _) => inferInstanceAs (Decidable True)
  | .create _ _ _ _ => inferInstanceAs (Decidable True)
  | .freeContext _ => inferInstanceAs (Decidable True)
  | .reuse _ => inferInstanceAs (Decidable True)

end Process

/-- The runs of a process that has no context yet, whatever its memory holds. -/
def processSystem {κ : Type} (drm : Drm κ) : TSys (Process κ) ProcessCall where
  init s := s.contexts = ∅
  step s c s' := s.Permitted c ∧ s.Spared c ∧ s.call drm c = .ok s'

/-! ## What creating a context does to the heap -/

section Create

variable {o : Outcomes} {s s' : Session} {ctx : Addr} {busid drmDevfile : List Byte}

theorem authWithLocalMaster_heap {auth : AuthOutcomes} {magic : Int}
    (run : authWithLocalMaster auth s magic busid = .ok s') : s'.heap = s.heap := by
  unfold authWithLocalMaster at run
  dsimp only at run
  split at run
  · exact nomatch run
  split at run
  · rw [← Except.ok.inj run, Session.openDescriptor_heap]
  · rw [← Except.ok.inj run, Session.close_heap, Session.openDescriptor_heap]

theorem authenticate_heap {r : Nat} (run : authenticate o s ctx busid = .ok (some (s', r))) :
    s'.heap = s.heap := by
  unfold authenticate at run
  dsimp only at run
  split at run
  · rw [(Prod.mk.inj (Option.some.inj (Except.ok.inj run))).1]
  split at run
  · exact nomatch run
  obtain ⟨s₁, auth, run⟩ := bind_eq_ok.mp run
  rw [← authWithLocalMaster_heap auth]
  split at run
  · split at run
    · rw [(Prod.mk.inj (Option.some.inj (Except.ok.inj run))).1]
    · rw [← (Prod.mk.inj (Option.some.inj (Except.ok.inj run))).1, Session.setInfo_heap]
  · rw [(Prod.mk.inj (Option.some.inj (Except.ok.inj run))).1]

theorem Session.freeBlock_outside (run : s.freeBlock ctx = .ok s') :
    s.heap.Outside s'.heap ∅ ∅ {ctx} := by
  unfold Session.freeBlock Store.free at run
  split at run
  · rw [← Except.ok.inj run]
    exact ⟨fun _ live _ => ⟨live, rfl⟩, fun _ live _ => ⟨live, rfl⟩,
      fun _ live other => ⟨Finset.mem_erase.mpr ⟨other, live⟩, rfl⟩⟩
  · exact nomatch run

theorem Session.abandon_outside (run : s.abandon ctx = .ok s') :
    s.heap.Outside s'.heap ∅ ∅ {ctx} := by
  obtain ⟨c, -, run⟩ := bind_eq_ok.mp run
  have outside := Session.freeBlock_outside run
  rw [Session.close_heap] at outside
  split at outside
  · exact outside
  · exact outside

/-- The last part gives the context up or makes its pool. -/
theorem finishContext_heap {libc : Libc} {ringWorking : Nat} {r : Option Addr}
    (run : finishContext o libc s ctx ringWorking = .ok (r, s')) :
    r = none ∧ s.heap.Outside s'.heap ∅ ∅ {ctx} ∨
      r = some ctx ∧ createVmPool libc s.heap ctx (o.vaStart.write 0) = .ok s'.heap := by
  have given : ∀ {s₁ : Session}, s.abandon ctx = .ok s₁ → Except.ok (ε := Fault) (none, s₁) =
      .ok (r, s') → r = none ∧ s.heap.Outside s'.heap ∅ ∅ {ctx} := by
    intro s₁ abandon final
    obtain ⟨rfl, rfl⟩ := Prod.mk.inj (Except.ok.inj final)
    exact ⟨rfl, Session.abandon_outside abandon⟩
  unfold finishContext at run
  dsimp only at run
  split at run
  · obtain ⟨s₁, abandon, final⟩ := bind_eq_ok.mp run
    exact .inl (given abandon final)
  split at run
  · obtain ⟨rfl, rfl⟩ := Prod.mk.inj (Except.ok.inj run)
    exact .inl ⟨rfl, Heap.Outside.refl _ _ _ _⟩
  split at run
  · obtain ⟨s₁, abandon, final⟩ := bind_eq_ok.mp run
    exact .inl (given abandon final)
  split at run
  · obtain ⟨s₁, abandon, final⟩ := bind_eq_ok.mp run
    exact .inl (given abandon final)
  split at run
  · obtain ⟨s₁, abandon, final⟩ := bind_eq_ok.mp run
    exact .inl (given abandon final)
  · obtain ⟨h, create, final⟩ := bind_eq_ok.mp run
    obtain ⟨rfl, rfl⟩ := Prod.mk.inj (Except.ok.inj final)
    exact .inr ⟨rfl, create⟩

/-- The heap with the block of a new context. -/
def Session.allocated (s : Session) (ctx : Addr) (fd : Nat) : Heap :=
  { s.heap with contexts := {
      cell := Function.update s.heap.contexts.cell ctx { s.heap.contexts.cell ctx with fd }
      live := insert ctx s.heap.contexts.live } }

theorem Session.allocated_outside (fresh : ctx ∉ s.heap.contexts.live) (fd : Nat) :
    s.heap.Outside (s.allocated ctx fd) ∅ ∅ ∅ := by
  refine ⟨fun _ live _ => ⟨live, rfl⟩, fun _ live _ => ⟨live, rfl⟩, fun a live _ => ?_⟩
  have other : a ≠ ctx := fun same => fresh (same ▸ live)
  exact ⟨Finset.mem_insert_of_mem live, Function.update_of_ne other _ _⟩

/-- A call that returns leaves every allocated block alone, and makes the pool
of the context it returns. -/
theorem computeCreateContext_heap {libc : ContextLibc} {r : Option Addr}
    (run : computeCreateContext o libc s drmDevfile busid = .ok (r, s')) :
    r = none ∧ s.heap.Outside s'.heap ∅ ∅ ∅ ∨
      r = some (libc.context.choose s.heap.contexts.live) ∧ ∃ fd,
        createVmPool libc.toLibc (s.allocated (libc.context.choose s.heap.contexts.live) fd)
          (libc.context.choose s.heap.contexts.live) (o.vaStart.write 0) = .ok s'.heap := by
  have fresh := libc.context.fresh s.heap.contexts.live
  unfold computeCreateContext Store.malloc at run
  dsimp only at run
  generalize libc.context.choose s.heap.contexts.live = ctx at fresh run ⊢
  split at run
  · exact nomatch run
  rw [Store.modify_eq (Finset.mem_insert_self _ _), ok_bind] at run
  have new := s.allocated_outside fresh (o.openDevice drmDevfile).toNat
  have back : ∀ {h : Heap}, (s.allocated ctx (o.openDevice drmDevfile).toNat).Outside h ∅ ∅ {ctx} →
      s.heap.Outside h ∅ ∅ ∅ := fun freed => new.trans freed (fun _ none _ => none)
    (fun _ none _ => none) fun a same live => absurd (same ▸ live) fresh
  split at run
  · obtain ⟨s₁, freed, final⟩ := bind_eq_ok.mp run
    obtain ⟨rfl, rfl⟩ := Prod.mk.inj (Except.ok.inj final)
    have outside := Session.freeBlock_outside freed
    rw [Session.openDescriptor_heap] at outside
    exact .inl ⟨rfl, back outside⟩
  obtain ⟨outcome, auth, run⟩ := bind_eq_ok.mp run
  cases outcome with
  | none =>
      obtain ⟨s₁, freed, final⟩ := bind_eq_ok.mp run
      obtain ⟨rfl, rfl⟩ := Prod.mk.inj (Except.ok.inj final)
      have outside := Session.freeBlock_outside freed
      rw [Session.close_heap, Session.setInfo_heap, Session.openDescriptor_heap] at outside
      exact .inl ⟨rfl, back outside⟩
  | some found =>
      obtain ⟨s₁, ringWorking⟩ := found
      have same := authenticate_heap auth
      rw [Session.setInfo_heap, Session.openDescriptor_heap] at same
      rcases finishContext_heap run with ⟨rfl, outside⟩ | ⟨rfl, create⟩
      · rw [same] at outside
        exact .inl ⟨rfl, back outside⟩
      · rw [same] at create
        exact .inr ⟨rfl, _, create⟩

end Create

end RadeonsiCompute
