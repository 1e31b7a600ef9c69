import RadeonsiCompute.Context.Create
import RadeonsiCompute.Buffer.Owned

/-!
# What creating a context leaves open

Each part of `compute_create_context` is specified by what is open after it
beyond what it should be. Three exits leave something: descriptor 0 is taken
for an error, `authWithLocalMaster` returns early when it cannot send, and a
compute ring that is not ready ends the function without any cleanup.
-/

namespace RadeonsiCompute

open Lib

/-- The display a context holds. -/
def ContextInfo.shown (info : ContextInfo) : Multiset Resource :=
  match info.display with
  | none => 0
  | some d => {.display d}

/-- What `authWithLocalMaster` leaves open: its socket, when it cannot send. -/
def AuthOutcomes.leaked (o : AuthOutcomes) (magic : Int) (busid : List Byte) :
    Multiset Resource :=
  if 0 ≤ o.socket ∧ o.sendto (authMessage magic busid) < 0 then {.descriptor o.socket.toNat}
  else 0

namespace Outcomes

/-- The descriptor has no access yet, and `drmGetMagic` fails. -/
def Refused (o : Outcomes) : Prop := o.ringInfo.ret ≠ 0 ∧ o.drmGetMagic ≠ 0

/-- The descriptor has no access yet, and the local master is asked for it. -/
def Authenticates (o : Outcomes) : Prop := o.ringInfo.ret ≠ 0 ∧ o.drmGetMagic = 0

/-- An assertion ends the process. -/
def Aborts (o : Outcomes) (drmDevfile : List Byte) : Prop :=
  o.drmAvailable = false ∨
    0 < o.openDevice drmDevfile ∧ o.Authenticates ∧ o.auth.setsockopt < 0

/-- What `ring_working` holds before the last `RADEON_INFO_RING_WORKING`. -/
def ringBefore (o : Outcomes) : Nat :=
  if o.ringInfo.ret = 0 then o.ringInfo.write 0 else o.ringInfoAuth.write (o.ringInfo.write 0)

/-- What `ring_working` holds when it is tested. -/
def ringWorking (o : Outcomes) : Nat := o.ringInfoFinal.write o.ringBefore

/-- The driver answers, and the compute ring is not ready. -/
def RingUnready (o : Outcomes) : Prop := o.ringInfoFinal.ret = 0 ∧ o.ringWorking = 0

/-- The socket `authWithLocalMaster` leaves open, if it is called. -/
def socketLeaked (o : Outcomes) (busid : List Byte) : Multiset Resource :=
  if o.ringInfo.ret = 0 then 0 else o.auth.leaked o.magic.toNat busid

instance (o : Outcomes) : Decidable o.Refused := inferInstanceAs (Decidable (_ ∧ _))

instance (o : Outcomes) : Decidable o.Authenticates := inferInstanceAs (Decidable (_ ∧ _))

instance (o : Outcomes) : Decidable o.RingUnready := inferInstanceAs (Decidable (_ ∧ _))

end Outcomes

/-! ## The parts -/

theorem Session.close_openDescriptor (s : Session) (fd : Int) :
    (s.openDescriptor fd).close fd = s := by
  unfold Session.close Session.openDescriptor
  split
  · rw [Multiset.erase_cons_head]
  · rfl

/-- `authWithLocalMaster` changes nothing but what is open. -/
theorem authWithLocalMaster_eq {o : AuthOutcomes} (set : 0 ≤ o.setsockopt) (s : Session)
    (magic : Int) (busid : List Byte) : authWithLocalMaster o s magic busid =
      .ok { s with opened := o.leaked magic busid + s.opened } := by
  unfold authWithLocalMaster
  rw [if_neg (by omega)]
  split
  · next unsent =>
      by_cases valid : 0 ≤ o.socket
      · simp only [Session.openDescriptor, AuthOutcomes.leaked, if_pos valid,
          if_pos (show _ ∧ _ from ⟨valid, unsent⟩), Multiset.singleton_add]
      · simp only [Session.openDescriptor, AuthOutcomes.leaked, if_neg valid,
          if_neg (show ¬ (_ ∧ _) from fun both => valid both.1), zero_add]
  · next sent =>
      rw [Session.close_openDescriptor, AuthOutcomes.leaked,
        if_neg (show ¬ (_ ∧ _) from fun both => sent both.2), zero_add]

/-- The session after `free(ctx)`. -/
def Session.dropContext (s : Session) (ctx : Addr) : Session :=
  { s with heap := { s.heap with
      contexts := { s.heap.contexts with live := s.heap.contexts.live.erase ctx } } }

theorem Session.freeBlock_eq {s : Session} {ctx : Addr} (live : ctx ∈ s.heap.contexts.live) :
    s.freeBlock ctx = .ok (s.dropContext ctx) := by
  rw [Session.freeBlock, Store.free_eq live]
  rfl

/-- Context `ctx` was allocated after `s₀` and holds the descriptor `fd`; what
is open beyond it and its display is `leak`. -/
structure Session.Creating (s₀ s : Session) (ctx : Addr) (fd : Nat) (leak : Multiset Resource) :
    Prop where
  fresh : ctx ∉ s₀.heap.contexts.live
  live : s.heap.contexts.live = insert ctx s₀.heap.contexts.live
  holds : (s.heap.contexts.cell ctx).fd = fd
  nodes : s.heap.nodes = s₀.heap.nodes
  opened : s.opened = (s.info ctx).shown + (.descriptor fd ::ₘ (leak + s₀.opened))

/-- What a creation that returned leaves: nothing but `leak` and, for a context
that is returned, its descriptor, its display and its first node. -/
def Session.Left (s₀ : Session) (leak : Multiset Resource) : Option Addr × Session → Prop
  | (none, s) => s.opened = leak + s₀.opened ∧
      s.heap.contexts.live = s₀.heap.contexts.live ∧ s.heap.nodes.live = s₀.heap.nodes.live
  | (some ctx, s) =>
      s.opened = leak + ((s.info ctx).shown + (.descriptor (s.heap.contexts.cell ctx).fd ::ₘ
        s₀.opened)) ∧
      ctx ∉ s₀.heap.contexts.live ∧ s.heap.contexts.live = insert ctx s₀.heap.contexts.live ∧
      s.heap.nodes.live = insert (s.heap.vmPool ctx) s₀.heap.nodes.live

namespace Session.Creating

variable {s₀ s : Session} {ctx : Addr} {fd : Nat} {leak : Multiset Resource}

theorem ctxLive (creating : s₀.Creating s ctx fd leak) : ctx ∈ s.heap.contexts.live := by
  rw [creating.live]
  exact Finset.mem_insert_self ctx _

/-- The cleanup closes what the context holds and frees it. -/
theorem abandon (creating : s₀.Creating s ctx fd leak) :
    ∃ s', s.abandon ctx = .ok s' ∧ s₀.Left leak (none, s') := by
  have load := Store.load_eq creating.ctxLive
  have valid : (0 : Int) ≤ fd := Int.natCast_nonneg fd
  have contexts : s.heap.contexts.live.erase ctx = s₀.heap.contexts.live := by
    rw [creating.live, Finset.erase_insert creating.fresh]
  refine ⟨{ s with opened := leak + s₀.opened }.dropContext ctx, ?_, rfl, contexts,
    congrArg Store.live creating.nodes⟩
  have opened := creating.opened
  unfold ContextInfo.shown at opened
  unfold Session.abandon
  cases display : (s.info ctx).display with
  | none =>
      rw [display, zero_add] at opened
      simp only [load, ok_bind, creating.holds, Session.close, if_pos valid, opened,
        Int.toNat_natCast, Multiset.erase_cons_head]
      exact Session.freeBlock_eq creating.ctxLive
  | some d =>
      rw [display, Multiset.singleton_add] at opened
      simp only [load, ok_bind, creating.holds, Session.xCloseDisplay, Session.close, if_pos valid,
        opened, Int.toNat_natCast, Multiset.erase_cons_head]
      exact Session.freeBlock_eq creating.ctxLive

/-- The last part returns the context, gives it up, or finds the ring not ready
and gives up nothing. -/
theorem finish (creating : s₀.Creating s ctx fd leak) (o : Outcomes) (libc : Libc) :
    ∃ r, finishContext o libc s ctx o.ringBefore = .ok r ∧
      (¬ o.RingUnready → s₀.Left leak r) ∧ (o.RingUnready → r = (none, s)) := by
  obtain ⟨s', abandon, left⟩ := creating.abandon
  unfold finishContext Outcomes.RingUnready
  show ∃ r, ite _ _ (ite (o.ringWorking = 0) _ _) = _ ∧ _
  by_cases failed : o.ringInfoFinal.ret = 0
  · rw [if_neg (not_not_intro failed)]
    by_cases ready : o.ringWorking = 0
    · rw [if_pos ready]
      exact ⟨_, rfl, fun ok => absurd ⟨failed, ready⟩ ok, fun _ => rfl⟩
    rw [if_neg ready]
    have notUnready : ∀ {P : Prop}, (o.ringInfoFinal.ret = 0 ∧ o.ringWorking = 0) → P :=
      fun both => absurd both.2 ready
    simp only [abandon, ok_bind]
    split
    · exact ⟨_, rfl, fun _ => left, notUnready⟩
    split
    · exact ⟨_, rfl, fun _ => left, notUnready⟩
    split
    · exact ⟨_, rfl, fun _ => left, notUnready⟩
    · -- the context is returned, with the display and the descriptor it had
      rw [createVmPool_eq libc _ creating.ctxLive, ok_bind]
      refine ⟨_, rfl, fun _ => ⟨?_, creating.fresh, creating.live, ?_⟩, notUnready⟩
      · have opened := creating.opened
        simp only [Session.setInfo, Heap.withPool, Function.update_self, creating.holds]
        rw [opened]
        simp only [ContextInfo.shown, Multiset.add_cons]
        rw [add_left_comm]
      · simp only [Session.setInfo, Heap.withPool, Heap.vmPool, Function.update_self,
          creating.nodes]
  · rw [if_pos failed, abandon, ok_bind]
    exact ⟨_, rfl, fun _ => left, fun both => absurd both.1 failed⟩

/-- The part in front of it refuses, or goes on with what is left open of the
local master's socket. -/
theorem authenticate (creating : s₀.Creating s ctx fd 0) (dark : (s.info ctx).display = none)
    (o : Outcomes) (busid : List Byte) (set : o.Authenticates → 0 ≤ o.auth.setsockopt) :
    (o.Refused → authenticate o s ctx busid = .ok none) ∧
      (¬ o.Refused → ∃ s', authenticate o s ctx busid = .ok (some (s', o.ringBefore)) ∧
        s₀.Creating s' ctx fd (o.socketLeaked busid)) := by
  have opened := creating.opened
  rw [ContextInfo.shown, dark, zero_add, zero_add] at opened
  unfold RadeonsiCompute.authenticate Outcomes.ringBefore Outcomes.socketLeaked
  by_cases access : o.ringInfo.ret = 0
  · refine ⟨fun refused => absurd access refused.1, fun _ => ⟨s, ?_, ?_⟩⟩
    · simp only [if_pos access]
    · rw [if_pos access]
      exact creating
  by_cases magic : o.drmGetMagic = 0
  · refine ⟨fun refused => absurd magic refused.2, fun _ => ?_⟩
    simp only [if_neg access, if_neg (not_not_intro magic),
      authWithLocalMaster_eq (set ⟨access, magic⟩), ok_bind]
    -- with or without a display, the socket is what is left over
    have dim : s₀.Creating { s with opened := o.auth.leaked o.magic.toNat busid + s.opened } ctx fd
        (o.auth.leaked o.magic.toNat busid) := by
      refine ⟨creating.fresh, creating.live, creating.holds, creating.nodes, ?_⟩
      show o.auth.leaked o.magic.toNat busid + s.opened = (s.info ctx).shown + _
      rw [ContextInfo.shown, dark, zero_add, opened, Multiset.add_cons]
    by_cases again : o.ringInfoAuth.ret = 0
    · rw [if_neg (not_not_intro again)]
      exact ⟨_, rfl, dim⟩
    · rw [if_pos again]
      cases o.xOpenDisplay with
      | none => exact ⟨_, rfl, dim⟩
      | some d =>
          refine ⟨_, rfl, creating.fresh, creating.live, creating.holds, creating.nodes, ?_⟩
          simp only [Session.setInfo, Function.update_self, ContextInfo.shown, opened,
            Multiset.singleton_add, Multiset.add_cons]
          rw [Multiset.cons_swap]
  · refine ⟨fun _ => ?_, fun accepted => absurd ⟨access, magic⟩ accepted⟩
    simp only [if_neg access, if_pos magic]

end Session.Creating

/-! ## The whole -/

section

variable (o : Outcomes) (libc : ContextLibc) (s : Session) (drmDevfile busid : List Byte)

/-- The session after the device was opened. -/
def Session.opening : Session :=
  let ctx := libc.context.choose s.heap.contexts.live
  let contexts : Store ComputeContext := {
    cell := Function.update s.heap.contexts.cell ctx
      { s.heap.contexts.cell ctx with fd := (o.openDevice drmDevfile).toNat }
    live := insert ctx s.heap.contexts.live }
  { s with heap := { s.heap with contexts } }.openDescriptor (o.openDevice drmDevfile)

/-- A descriptor that is an error, or that is taken for one, is not closed. -/
theorem computeCreateContext_error (available : o.drmAvailable = true)
    (error : o.openDevice drmDevfile < 1) :
    ∃ s', computeCreateContext o libc s drmDevfile busid = .ok (none, s') ∧
      s.Left (if o.openDevice drmDevfile < 0 then 0 else {.descriptor 0}) (none, s') := by
  have fresh := libc.context.fresh s.heap.contexts.live
  unfold computeCreateContext Store.malloc
  dsimp only
  rw [if_neg (by simp [available]), Store.modify_eq (Finset.mem_insert_self _ _), ok_bind,
    if_pos error]
  refine ⟨(s.opening o libc drmDevfile).dropContext (libc.context.choose s.heap.contexts.live),
    ?_, ?_, ?_, ?_⟩
  · have live : libc.context.choose s.heap.contexts.live ∈
        (s.opening o libc drmDevfile).heap.contexts.live := by
      unfold Session.opening Session.openDescriptor
      dsimp only
      split
      · exact Finset.mem_insert_self _ _
      · exact Finset.mem_insert_self _ _
    exact congrArg (· >>= fun s' => Except.ok (none, s')) (Session.freeBlock_eq live)
  · unfold Session.dropContext Session.opening Session.openDescriptor
    by_cases negative : o.openDevice drmDevfile < 0
    · simp only [if_neg (show ¬ 0 ≤ o.openDevice drmDevfile by omega), if_pos negative, zero_add]
    · have zero : o.openDevice drmDevfile = 0 := by omega
      simp only [zero, le_refl, if_true, lt_irrefl, if_false, Int.toNat_zero,
        Multiset.singleton_add]
  · unfold Session.dropContext Session.opening Session.openDescriptor
    split
    · exact Finset.erase_insert fresh
    · exact Finset.erase_insert fresh
  · unfold Session.dropContext Session.opening Session.openDescriptor
    split <;> rfl

/-- The session when access to the device is asked for. -/
def Session.started : Session :=
  (s.opening o libc drmDevfile).setInfo (libc.context.choose s.heap.contexts.live)
    { s.info (libc.context.choose s.heap.contexts.live) with display := none, window := 0 }

theorem computeCreateContext_eq (available : o.drmAvailable = true)
    (positive : 0 < o.openDevice drmDevfile) : computeCreateContext o libc s drmDevfile busid =
      (authenticate o (s.started o libc drmDevfile) (libc.context.choose s.heap.contexts.live)
          busid >>= fun
        | none => do
            let s' ← ((s.started o libc drmDevfile).close (o.openDevice drmDevfile)).freeBlock
              (libc.context.choose s.heap.contexts.live)
            .ok (none, s')
        | some (s', ringWorking) => finishContext o libc.toLibc s'
            (libc.context.choose s.heap.contexts.live) ringWorking) := by
  unfold computeCreateContext Store.malloc
  dsimp only
  rw [if_neg (by simp [available]), Store.modify_eq (Finset.mem_insert_self _ _), ok_bind,
    if_neg (by omega), Session.openDescriptor_info]
  rfl

theorem Session.creating_started (positive : 0 < o.openDevice drmDevfile) :
    s.Creating (s.started o libc drmDevfile) (libc.context.choose s.heap.contexts.live)
        (o.openDevice drmDevfile).toNat 0 ∧
      ((s.started o libc drmDevfile).info
        (libc.context.choose s.heap.contexts.live)).display = none := by
  refine ⟨⟨libc.context.fresh s.heap.contexts.live, ?_, ?_, ?_, ?_⟩, ?_⟩
  all_goals
    simp only [Session.started, Session.opening, Session.openDescriptor, Session.setInfo,
      Function.update_self, if_pos (show 0 ≤ o.openDevice drmDevfile by omega),
      ContextInfo.shown, zero_add]

/-- The call does not return when the socket takes no timeout. -/
theorem computeCreateContext_aborts (available : o.drmAvailable = true)
    (positive : 0 < o.openDevice drmDevfile) (asks : o.Authenticates)
    (unset : o.auth.setsockopt < 0) (r : Option Addr × Session) :
    computeCreateContext o libc s drmDevfile busid ≠ .ok r := by
  rw [computeCreateContext_eq o libc s drmDevfile busid available positive, authenticate,
    if_neg asks.1, if_neg (not_not_intro asks.2), authWithLocalMaster, if_pos unset]
  simp

/-- A descriptor that is used: the call gives it up when `drmGetMagic` fails,
and else ends as its last part does. -/
theorem computeCreateContext_used (available : o.drmAvailable = true)
    (positive : 0 < o.openDevice drmDevfile) (set : o.Authenticates → 0 ≤ o.auth.setsockopt) :
    (o.Refused → ∃ s', computeCreateContext o libc s drmDevfile busid = .ok (none, s') ∧
        s.Left 0 (none, s')) ∧
      (¬ o.Refused → ∃ r, computeCreateContext o libc s drmDevfile busid = .ok r ∧
        (¬ o.RingUnready → s.Left (o.socketLeaked busid) r) ∧
        (o.RingUnready → ∃ s', r = (none, s') ∧ s'.heap.contexts.live ≠ s.heap.contexts.live)) := by
  obtain ⟨creating, dark⟩ := s.creating_started o libc drmDevfile positive
  obtain ⟨refused, accepted⟩ := creating.authenticate dark o busid set
  rw [computeCreateContext_eq o libc s drmDevfile busid available positive]
  generalize s.started o libc drmDevfile = s₁ at creating dark refused accepted
  generalize libc.context.choose s.heap.contexts.live = ctx at creating dark refused accepted
  have valid : 0 ≤ o.openDevice drmDevfile := by omega
  constructor
  · intro no
    rw [refused no, ok_bind]
    -- nothing but the descriptor was opened
    have opened := creating.opened
    rw [ContextInfo.shown, dark, zero_add, zero_add] at opened
    have contexts : s₁.heap.contexts.live.erase ctx = s.heap.contexts.live := by
      rw [creating.live, Finset.erase_insert creating.fresh]
    have live : ctx ∈ ({ s₁ with opened := s.opened } : Session).heap.contexts.live :=
      creating.ctxLive
    refine ⟨{ s₁ with opened := s.opened }.dropContext ctx, ?_, (zero_add _).symm, contexts,
      congrArg Store.live creating.nodes⟩
    simp only [Session.close, if_pos valid, opened, Multiset.erase_cons_head,
      Session.freeBlock_eq live, ok_bind]
  · intro yes
    obtain ⟨s₂, run, creating'⟩ := accepted yes
    obtain ⟨r, finish, left, stuck⟩ := creating'.finish o libc.toLibc
    rw [run, ok_bind]
    refine ⟨r, finish, left, fun unready => ⟨s₂, stuck unready, fun same => creating.fresh ?_⟩⟩
    rw [← same]
    exact creating'.ctxLive

end

/-- The outcomes for which everything is released: the process is aborted, or
the device does not open, or it opens as another descriptor than 0, the message
to the local master can be sent, and the ring is ready when the driver says so. -/
def Outcomes.Clean (o : Outcomes) (drmDevfile busid : List Byte) : Prop :=
  o.Aborts drmDevfile ∨ o.openDevice drmDevfile < 0 ∨
    0 < o.openDevice drmDevfile ∧ (o.Refused ∨
      (o.Authenticates → 0 ≤ o.auth.socket →
        0 ≤ o.auth.sendto (authMessage o.magic.toNat busid)) ∧ ¬ o.RingUnready)

/-- Nothing of the socket is left exactly when the message was sent. -/
theorem Outcomes.socketLeaked_eq_zero {o : Outcomes} {busid : List Byte} (accepted : ¬ o.Refused) :
    o.socketLeaked busid = 0 ↔ (o.Authenticates → 0 ≤ o.auth.socket →
      0 ≤ o.auth.sendto (authMessage o.magic.toNat busid)) := by
  unfold Outcomes.socketLeaked AuthOutcomes.leaked
  by_cases access : o.ringInfo.ret = 0
  · rw [if_pos access]
    exact ⟨fun _ asks => absurd access asks.1, fun _ => rfl⟩
  · have asks : o.Authenticates :=
      ⟨access, not_not.mp fun failed => accepted ⟨access, failed⟩⟩
    rw [if_neg access]
    split
    · next both =>
        refine ⟨fun empty => absurd empty (Multiset.singleton_ne_zero _), fun sent => ?_⟩
        have := sent asks both.1
        omega
    · next neither =>
        refine ⟨fun _ _ valid => not_lt.mp fun unsent => neither ⟨valid, unsent⟩, fun _ => rfl⟩

/-- What is left beyond nothing is a leak. -/
theorem Session.Left.unique {s : Session} {leak : Multiset Resource} {r : Option Addr × Session}
    (left : s.Left leak r) : s.Left 0 r ↔ leak = 0 := by
  constructor
  · intro clean
    obtain ⟨result, s'⟩ := r
    cases result with
    | none => exact add_right_cancel (left.1.symm.trans clean.1)
    | some ctx => exact add_right_cancel (left.1.symm.trans clean.1)
  · rintro rfl
    exact left

/-- Of a used descriptor, clean answers are a refusal or a message that was sent
and a ring that is ready. -/
theorem Outcomes.clean_iff_of_used {o : Outcomes} {drmDevfile busid : List Byte}
    (available : o.drmAvailable = true) (positive : 0 < o.openDevice drmDevfile)
    (set : o.Authenticates → 0 ≤ o.auth.setsockopt) :
    o.Clean drmDevfile busid ↔ o.Refused ∨ (o.Authenticates → 0 ≤ o.auth.socket →
      0 ≤ o.auth.sendto (authMessage o.magic.toNat busid)) ∧ ¬ o.RingUnready := by
  constructor
  · rintro ((unavailable | ⟨-, asks, unset⟩) | negative | ⟨-, clean⟩)
    · rw [available] at unavailable
      exact nomatch unavailable
    · have := set asks
      omega
    · omega
    · exact clean
  · exact fun clean => .inr (.inr ⟨positive, clean⟩)

/-- A device that does not open is clean; as descriptor 0 it is not. -/
theorem Outcomes.clean_iff_of_error {o : Outcomes} {drmDevfile busid : List Byte}
    (available : o.drmAvailable = true) (error : o.openDevice drmDevfile < 1) :
    o.Clean drmDevfile busid ↔ o.openDevice drmDevfile < 0 := by
  constructor
  · rintro ((unavailable | ⟨positive, -⟩) | negative | ⟨positive, -⟩)
    · rw [available] at unavailable
      exact nomatch unavailable
    · omega
    · exact negative
    · omega
  · exact fun negative => .inr (.inl negative)

/-- What all results of a call that returned have, its one result has. -/
theorem forall_ok_iff {α : Type} {x : Except Fault α} {a : α} {P : α → Prop} (run : x = .ok a) :
    (∀ r, x = .ok r → P r) ↔ P a :=
  ⟨fun all => all a run, fun holds _ run' => Except.ok.inj (run.symm.trans run') ▸ holds⟩

/-- **When creation releases everything.** A call that returns has left open
exactly what it should, whatever the external calls answered, if and only if
those answers are clean. -/
theorem createContext_releases_iff (o : Outcomes) (libc : ContextLibc) (s : Session)
    (drmDevfile busid : List Byte) :
    (∀ r, computeCreateContext o libc s drmDevfile busid = .ok r → s.Left 0 r) ↔
      o.Clean drmDevfile busid := by
  by_cases available : o.drmAvailable = true
  swap
  · -- the first assertion fails
    have aborted : o.drmAvailable = false := by simpa using available
    refine ⟨fun _ => .inl (.inl aborted), fun _ r run => ?_⟩
    rw [computeCreateContext, if_pos aborted] at run
    exact nomatch run
  by_cases error : o.openDevice drmDevfile < 1
  · obtain ⟨s', run, left⟩ := computeCreateContext_error o libc s drmDevfile busid available error
    rw [forall_ok_iff run, left.unique, Outcomes.clean_iff_of_error available error]
    by_cases negative : o.openDevice drmDevfile < 0
    · rw [if_pos negative]
      exact iff_of_true rfl negative
    · rw [if_neg negative]
      exact iff_of_false (Multiset.singleton_ne_zero _) negative
  have positive : 0 < o.openDevice drmDevfile := by omega
  by_cases aborts : o.Authenticates ∧ o.auth.setsockopt < 0
  · -- the assertion in `authWithLocalMaster` fails
    refine ⟨fun _ => .inl (.inr ⟨positive, aborts.1, aborts.2⟩), fun _ r run => ?_⟩
    exact absurd run (computeCreateContext_aborts o libc s drmDevfile busid available positive
      aborts.1 aborts.2 r)
  have set : o.Authenticates → 0 ≤ o.auth.setsockopt := fun asks =>
    not_lt.mp fun negative => aborts ⟨asks, negative⟩
  obtain ⟨refused, accepted⟩ :=
    computeCreateContext_used o libc s drmDevfile busid available positive set
  rw [Outcomes.clean_iff_of_used available positive set]
  by_cases no : o.Refused
  · obtain ⟨s', run, left⟩ := refused no
    rw [forall_ok_iff run]
    exact iff_of_true left (.inl no)
  obtain ⟨r, run, left, stuck⟩ := accepted no
  rw [forall_ok_iff run]
  by_cases unready : o.RingUnready
  · -- the context itself is left
    obtain ⟨s', rfl, leftover⟩ := stuck unready
    refine iff_of_false (fun clean => leftover clean.2.1) ?_
    rintro (refuses | ⟨-, ready⟩)
    · exact no refuses
    · exact ready unready
  · rw [(left unready).unique, Outcomes.socketLeaked_eq_zero no]
    refine ⟨fun sent => .inr ⟨sent, unready⟩, ?_⟩
    rintro (refuses | ⟨sent, -⟩)
    · exact absurd refuses no
    · exact sent

/-- A process that has opened nothing. -/
def Session.empty : Session where
  heap := {
    nodes := ⟨fun _ => ⟨⟨0, 0, ⟨0, 0⟩, ⟨0, 0⟩⟩, none, none⟩, ∅⟩
    buffers := ⟨fun _ => ⟨0, fun _ => .zero⟩, ∅⟩
    contexts := ⟨fun _ => ⟨0, 0⟩, ∅⟩ }
  info _ := ⟨none, 0, 0, 0, 0⟩
  opened := 0

def ContextLibc.above : ContextLibc where
  node := .above
  buffer := .above
  context := .above

/-- The device opens as `fd` and every request is granted; the driver reports
`ring` for the compute ring and reserves nothing. -/
def Outcomes.granted (fd : Int) (ring : UInt32) : Outcomes where
  drmAvailable := true
  drmOpen _ _ := fd
  openFile _ := fd
  ringInfo := ⟨0, some ring⟩
  drmGetMagic := 0
  magic := 0
  auth := ⟨4, 0, fun message => message.length, 0⟩
  ringInfoAuth := ⟨0, some ring⟩
  xOpenDisplay := none
  defaultRootWindow := 0
  vaDri2Authenticate := 0
  ringInfoFinal := ⟨0, some ring⟩
  vaStart := ⟨0, some 0⟩
  ibVmMaxSize := ⟨0, some 0⟩
  gemInfo := (0, ⟨0, 0, 0⟩)

/-- A ring that is not ready: the descriptor stays open. -/
theorem not_releases_deadRing :
    ∃ s', computeCreateContext (.granted 3 0) .above .empty (text "/dev/dri/card0") [] =
        .ok (none, s') ∧ s'.opened = {.descriptor 3} ∧ ¬ Session.empty.Left 0 (none, s') := by
  obtain ⟨⟨result, s'⟩, run, left⟩ := Option.map_eq_some_iff.mp (show
    (computeCreateContext (.granted 3 0) .above .empty (text "/dev/dri/card0") []).toOption.map
      (fun r => (r.1, r.2.opened)) = some (none, {.descriptor 3}) by decide +kernel)
  obtain ⟨rfl, opened⟩ := Prod.mk.inj left
  refine ⟨s', toOption_eq_some.mp run, opened, fun clean => ?_⟩
  have none : s'.opened = 0 := clean.1
  rw [opened] at none
  exact Multiset.singleton_ne_zero _ none

end RadeonsiCompute
