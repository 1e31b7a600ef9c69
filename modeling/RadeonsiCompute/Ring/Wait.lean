import RadeonsiCompute.Ring.Driver

/-!
# What is finished when a wait returns

`compute_bo_wait` asks for one fragment after the other; while it does, nothing
new comes from this descriptor, so what was idle stays idle
(`computeBoWait_idle`). `waitBuffer` waits, sends a cache flush that lists every
fragment of the pool, and waits again. The flush lists the buffer, so the
second wait sees it through, and with it everything the compute ring had before
it, whether it lists the buffer or not (`waitBuffer_drains`).
-/

namespace RadeonsiCompute

open Lib

variable {κ σ : Type} {drm : CsDrm κ} {effect : Job → σ → σ → Prop} {view : κ → Rings Job σ}
  {patience : Nat}

/-- What was idle is idle after steps in which the descriptor submits nothing. -/
theorem Leads.keeps_idle {fd handle : Nat} {k k' : κ} (leads : Leads effect view fd k [] k')
    (idle : ∀ job ∈ (view k).pending, ¬ job.Lists fd handle) :
    ∀ job ∈ (view k').pending, ¬ job.Lists fd handle := by
  obtain ⟨es, run, own⟩ := leads
  intro job member
  cases run.pending_mem job member with
  | inl before => exact idle job before
  | inr new =>
      intro lists
      have mine : job ∈ (Rings.accepted es).filter (fun job => job.fd = fd) :=
        List.mem_filter.mpr ⟨new, by simpa using lists.1⟩
      rw [own] at mine
      exact absurd mine List.not_mem_nil

/-! ## Waiting for a buffer -/

section Wait

variable {h : Heap} {ctx : Addr} {bo : BufPtr}

theorem boWaitLoop_idle (inOrder : drm.InOrder effect view patience) (count : Nat) :
    ∀ (i : Nat) (w : CsWorld κ),
      (∀ j < count, h.ValidBuffer (bo.add (i + j)) ∧ (h.buffer (bo.add (i + j))).ctx = ctx) →
      ctx ∈ h.contexts.live →
      ∃ ret w', boWaitLoop drm h bo count i w = .ok (ret, w') ∧
        w'.submitted = w.submitted ∧
        Leads effect view (h.contexts.cell ctx).fd w.kernel [] w'.kernel ∧
        (ret = 0 → ∀ j < count, ∀ job ∈ (view w'.kernel).pending,
          ¬ job.Lists (h.contexts.cell ctx).fd (h.buffer (bo.add (i + j))).handle) ∧
        (ret = 0 ∨ ∃ fd handle k, (drm.waitIdle fd handle k).1 = ret) := by
  induction count with
  | zero =>
      intro i w _ _
      exact ⟨0, w, rfl, rfl, .refl _ _, fun _ j hj => absurd hj (Nat.not_lt_zero j), .inl rfl⟩
  | succ count ih =>
      intro i w valid ctxLive
      obtain ⟨here, own⟩ := valid 0 (Nat.succ_pos count)
      rw [Nat.add_zero] at here own
      have leads := inOrder.waited (h.contexts.cell ctx).fd (h.buffer (bo.add i)).handle w.kernel
      have idle := inOrder.idle (h.contexts.cell ctx).fd (h.buffer (bo.add i)).handle w.kernel
      generalize answer : drm.waitIdle (h.contexts.cell ctx).fd (h.buffer (bo.add i)).handle
        w.kernel = reply at leads idle
      obtain ⟨ret, k⟩ := reply
      simp only [boWaitLoop, computeBoWaitUnfragmented, Heap.loadBuffer_eq here, ok_bind, own,
        Store.load_eq ctxLive, answer]
      by_cases failed : ret = 0
      · obtain ⟨ret', w', run, same, later, idle', source⟩ := ih (i + 1) { w with kernel := k }
          (fun j hj => by
            have next := valid (j + 1) (by omega)
            rwa [show i + (j + 1) = i + 1 + j by omega] at next) ctxLive
        refine ⟨ret', w', ?_, same, leads.trans later, fun done j hj => ?_, source⟩
        · rw [if_neg (not_not.mpr failed)]
          exact run
        · cases j with
          | zero =>
              rw [Nat.add_zero]
              exact later.keeps_idle (idle failed)
          | succ j =>
              rw [show i + (j + 1) = i + 1 + j by omega]
              exact idle' done j (by omega)
      · refine ⟨ret, { w with kernel := k }, ?_, rfl, leads, fun done => absurd done failed,
          .inr ⟨_, _, w.kernel, congrArg Prod.fst answer⟩⟩
        rw [if_pos failed]

/-- Waiting leaves no more ahead of any object. -/
theorem Leads.retryRounds_le {fd : Nat} {k k' : κ} (leads : Leads effect view fd k [] k')
    (handle : Nat) :
    retryRounds view patience fd handle k' ≤ retryRounds view patience fd handle k := by
  obtain ⟨es, run, own⟩ := leads
  refine Nat.mul_le_mul_right _ (Nat.succ_le_succ (run.ahead_le fun job member => ?_))
  refine decide_eq_false fun lists => ?_
  have mine : job ∈ (Rings.accepted es).filter (fun job => job.fd = fd) :=
    List.mem_filter.mpr ⟨member, by simpa using lists.1⟩
  rw [own] at mine
  exact absurd mine List.not_mem_nil

/-- With enough rounds for what is ahead at the start, the loops of
`compute_bo_wait` are one call of the patient driver for each fragment. -/
theorem boWaitRetryLoop_eq (inOrder : drm.InOrder effect view patience) {fuel : Nat} (count : Nat) :
    ∀ (i : Nat) (w : CsWorld κ),
      (∀ j < count, h.ValidBuffer (bo.add (i + j)) ∧ (h.buffer (bo.add (i + j))).ctx = ctx) →
      ctx ∈ h.contexts.live →
      (∀ handle, retryRounds view patience (h.contexts.cell ctx).fd handle w.kernel ≤ fuel) →
      boWaitRetryLoop drm fuel h bo count i w =
        boWaitLoop (drm.patient (retryRounds view patience)) h bo count i w := by
  induction count with
  | zero => intro i w _ _ _; rfl
  | succ count ih =>
      intro i w valid ctxLive enough
      obtain ⟨here, own⟩ := valid 0 (Nat.succ_pos count)
      rw [Nat.add_zero] at here own
      have answer := inOrder.patient_waitIdle (h.contexts.cell ctx).fd
        (h.buffer (bo.add i)).handle w.kernel (enough _)
      have leads := inOrder.patient.1.waited (h.contexts.cell ctx).fd
        (h.buffer (bo.add i)).handle w.kernel
      generalize same : (drm.patient (retryRounds view patience)).waitIdle (h.contexts.cell ctx).fd
        (h.buffer (bo.add i)).handle w.kernel = reply at answer leads
      obtain ⟨ret, k⟩ := reply
      simp only [boWaitRetryLoop, boWaitLoop, computeBoWaitUnfragmentedLoop,
        computeBoWaitUnfragmented, Heap.loadBuffer_eq here, ok_bind, own, Store.load_eq ctxLive,
        answer, same]
      dsimp only at leads
      by_cases failed : ret ≠ 0
      · rw [if_pos failed, if_pos failed]
      · rw [if_neg failed, if_neg failed]
        refine ih (i + 1) { w with kernel := k } (fun j hj => ?_) ctxLive fun handle =>
          Nat.le_trans (leads.retryRounds_le handle) (enough handle)
        have next := valid (j + 1) (by omega)
        rwa [show i + (j + 1) = i + 1 + j by omega] at next

/-- A buffer whose fragments are allocated and of the context. -/
structure Heap.Waitable (h : Heap) (ctx : Addr) (bo : BufPtr) : Prop where
  ctxLive : ctx ∈ h.contexts.live
  self : h.ValidBuffer bo
  valid : ∀ i < (h.buffer bo).fragmentNumber, h.ValidBuffer (bo.add i)
  own : h.OwnFragments ctx bo
  positive : 0 < (h.buffer bo).fragmentNumber

/-- **`compute_bo_wait` waits for the whole buffer**: when it returns 0, nothing
this descriptor submitted before that lists a fragment is left. -/
theorem computeBoWait_idle (inOrder : drm.InOrder effect view patience)
    (waitable : h.Waitable ctx bo) (w : CsWorld κ) :
    ∃ ret w', computeBoWait drm h bo w = .ok (ret, w') ∧ w'.submitted = w.submitted ∧
      Leads effect view (h.contexts.cell ctx).fd w.kernel [] w'.kernel ∧
      (ret = 0 → ∀ i < (h.buffer bo).fragmentNumber, ∀ job ∈ (view w'.kernel).pending,
        ¬ job.Lists (h.contexts.cell ctx).fd (h.buffer (bo.add i)).handle) ∧
      (ret = 0 ∨ ∃ fd handle k, (drm.waitIdle fd handle k).1 = ret) := by
  have each : ∀ j < (h.buffer bo).fragmentNumber,
      h.ValidBuffer (bo.add (0 + j)) ∧ (h.buffer (bo.add (0 + j))).ctx = ctx := by
    intro j hj
    rw [Nat.zero_add]
    exact ⟨waitable.valid j hj, waitable.own j hj⟩
  obtain ⟨ret, w', run, same, leads, idle, source⟩ :=
    boWaitLoop_idle inOrder (h.buffer bo).fragmentNumber 0 w each waitable.ctxLive
  refine ⟨ret, w', ?_, same, leads, fun done i hi => ?_, source⟩
  · simp only [computeBoWait, Heap.loadBuffer_eq waitable.self, ok_bind, run]
  · have here := idle done i hi
    rwa [Nat.zero_add] at here

end Wait

/-- A buffer that is held can be waited for. -/
theorem LegalInv.waitable {h : Heap} {ctx : Addr} {held : Finset BufPtr} {rest : List Addr}
    {bo : BufPtr} (legal : LegalInv h ctx held rest) (hbo : bo ∈ held)
    (own : h.OwnFragments ctx bo) : h.Waitable ctx bo where
  ctxLive := legal.owned.ctxLive
  self := legal.owned.validBuffer_self hbo
  valid _ hi := legal.owned.validBuffer hbo hi
  own := own
  positive := (legal.owned.buffers bo hbo).positive

/-- So in a legal run. -/
theorem legalSystem_waitable {κ : Type} {drm : Drm κ} {view : Nat → κ → Kernel}
    (honest : drm.Honest view) (ctx : Addr) {s : Client κ}
    (reach : (legalSystem drm ctx).Reachable s) {bo : BufPtr} (held : bo ∈ s.held) :
    s.world.heap.Waitable ctx bo := by
  obtain ⟨rest, legal⟩ := (Client.inductive_ordered ctx honest).invariant reach
  exact legal.waitable held (legalSystem_ownFragments honest ctx reach held)

/-- **A wait for a buffer ends, and with 0 only when the buffer is idle.**
Whatever was allocated and freed before, and whatever else is queued: if no more
than `patience` waits time out while the hardware is at one submission,
`patience + 1` rounds for each that is pending, and as many again, are enough for
each fragment. -/
theorem computeBoWait_returns {κ' : Type} {drm' : Drm κ'} {view' : Nat → κ' → Kernel}
    (honest : drm'.Honest view') (ctx : Addr) {s : Client κ'}
    (reach : (legalSystem drm' ctx).Reachable s) {bo : BufPtr} (held : bo ∈ s.held)
    (inOrder : drm.InOrder effect view patience) (w : CsWorld κ) :
    ∃ ret w', (∀ fuel, ((view w.kernel).pending.length + 1) * (patience + 1) ≤ fuel →
        computeBoWaitRetry drm fuel s.world.heap bo w = .ok (ret, w')) ∧
      ret ≠ eBusy ∧ w'.submitted = w.submitted ∧
      Leads effect view (s.world.heap.contexts.cell ctx).fd w.kernel [] w'.kernel ∧
      (ret = 0 → ∀ i < (s.world.heap.buffer bo).fragmentNumber,
        ∀ job ∈ (view w'.kernel).pending, ¬ job.Lists (s.world.heap.contexts.cell ctx).fd
          (s.world.heap.buffer (bo.add i)).handle) := by
  have waitable := legalSystem_waitable honest ctx reach held
  obtain ⟨patient, never⟩ := inOrder.patient
  obtain ⟨ret, w', run, same, leads, idle, source⟩ := computeBoWait_idle patient waitable w
  refine ⟨ret, w', fun fuel enough => ?_, ?_, same, leads, idle⟩
  · rw [← run]
    simp only [computeBoWaitRetry, computeBoWait, Heap.loadBuffer_eq waitable.self, ok_bind]
    refine boWaitRetryLoop_eq inOrder _ 0 w (fun j hj => ?_) waitable.ctxLive fun handle => ?_
    · rw [Nat.zero_add]
      exact ⟨waitable.valid j hj, waitable.own j hj⟩
    · refine Nat.le_trans (Nat.mul_le_mul_right _ (Nat.succ_le_succ ?_)) enough
      exact Rings.ahead_le_length _
  · rcases source with rfl | ⟨fd, handle, k, rfl⟩
    · decide
    · exact never fd handle k

/-- A caller with a buffer of two fragments and one of a single fragment. -/
theorem legalSystem_twoBuffers :
    ∃ s, Client.run (limitedDrm .above 10) (fun s c _ => s.Legal 0 c) .empty
        [.alloc .above 104857600 2 4096, .alloc .above 5000 4 4096] = some s ∧
      (legalSystem (limitedDrm .above 10) 0).Reachable s ∧ ⟨1, 0⟩ ∈ s.held ∧ ⟨2, 0⟩ ∈ s.held ∧
      (s.world.heap.buffer ⟨1, 0⟩).va = 4096 ∧ (s.world.heap.buffer ⟨2, 0⟩).va = 104861696 ∧
      (s.world.heap.contexts.cell 0).fd = 3 := by
  obtain ⟨s, run, facts⟩ := Option.map_eq_some_iff.mp (show
    (Client.run (limitedDrm .above 10) (fun s c _ => s.Legal 0 c) .empty
      [.alloc .above 104857600 2 4096, .alloc .above 5000 4 4096]).map (fun s =>
        decide (⟨1, 0⟩ ∈ s.held ∧ ⟨2, 0⟩ ∈ s.held ∧ (s.world.heap.buffer ⟨1, 0⟩).va = 4096 ∧
          (s.world.heap.buffer ⟨2, 0⟩).va = 104861696 ∧
          (s.world.heap.contexts.cell 0).fd = 3)) = some true by decide +kernel)
  have reach := Client.reachable_of_run (limitedDrm .above 10) (fun s c _ => s.Legal 0 c)
    (fun _ => True) trivial run
  exact ⟨s, run, reach, of_decide_eq_true facts⟩

/-- A queue with one submission that lists the object behind handle 1. -/
def onePending : CsWorld (Rings Job Unit) where
  kernel := { pending := [⟨3, radeonCs radeonCsRingDma [⟨1, 2, 2, 0⟩] [] 1⟩], state := () }
  submitted := []

/-- A wait for the larger buffer, one of whose fragments it lists. -/
theorem computeBoWait_returns_onePending :
    ∃ s ret w', Client.run (limitedDrm .above 10) (fun s c _ => s.Legal 0 c) .empty
        [.alloc .above 104857600 2 4096, .alloc .above 5000 4 4096] = some s ∧
      (∀ fuel, 2 ≤ fuel → computeBoWaitRetry (lazyDrm fun _ u => u) fuel s.world.heap ⟨1, 0⟩
        onePending = .ok (ret, w')) ∧ ret ≠ eBusy := by
  obtain ⟨s, run, reach, held, -⟩ := legalSystem_twoBuffers
  obtain ⟨ret, w', wait, done, -⟩ := computeBoWait_returns (limitedDrm_honest .above 10) 0 reach
    held (lazyDrm_inOrder fun _ u => u) onePending
  exact ⟨s, ret, w', run, wait, done⟩

/-! ## Handing in a submission -/

theorem CsDrm.InOrder.submit (inOrder : drm.InOrder effect view patience) (w : CsWorld κ) (fd : Nat)
    (cs : RadeonCs) (taken : (drm.cs fd cs w.kernel).1 = 0) :
    Leads effect view fd w.kernel [⟨fd, cs⟩] (w.submit drm fd cs).2.kernel :=
  inOrder.taken fd cs w.kernel taken

/-! ## Draining the compute ring -/

/-- The ring of a submission is the compute ring. -/
def Job.OnCompute (job : Job) : Prop := job.ring = some radeonCsRingCompute

instance (job : Job) : Decidable job.OnCompute := inferInstanceAs (Decidable (_ = _))

/-- Everything in a ring up to the last submission of a descriptor is gone with
that submission. -/
theorem gone_with_last {rs rs' : Rings Job σ} {es : List (RingEvent Job)}
    (run : Rings.Run Job.ring effect rs es rs') {fd : Nat} {ring : Option Dword}
    {before : List Job} {job : Job} (onRing : job.ring = ring) (gone : job ∉ rs'.pending)
    (own : (Rings.accepted es).filter (fun job => job.fd = fd) = before ++ [job]) :
    ∀ other ∈ rs'.pending, other.ring = ring → other ∈ Rings.accepted es ∧ other.fd ≠ fd := by
  obtain ⟨first, later, split, -, last⟩ := List.filter_eq_append_iff.mp own
  obtain ⟨foreign, after, rfl, -, -, rest⟩ := List.filter_eq_cons_iff.mp last
  have same : ∀ job other : Job, job.ring = ring → other.ring = ring → job.ring = other.ring :=
    fun job other here there => here.trans there.symm
  have queued : rs.pending.filter (fun job => job.ring = ring) ++
      (Rings.accepted es).filter (fun job => job.ring = ring) =
        (rs.pending ++ first ++ foreign).filter (fun job => job.ring = ring) ++
          job :: after.filter fun job => job.ring = ring := by
    rw [split]
    simp only [List.filter_append, List.filter_cons, onRing, decide_true, if_true,
      List.append_assoc]
  have suffix := run.drained (fun job => job.ring = ring) same queued gone
  intro other member here
  have inAfter : other ∈ after := by
    have kept : other ∈ rs'.pending.filter fun job => job.ring = ring :=
      List.mem_filter.mpr ⟨member, by simpa using here⟩
    exact List.mem_of_mem_filter (suffix.subset kept)
  refine ⟨?_, fun mine => ?_⟩
  · rw [split]
    simp [inAfter]
  · have none := List.filter_eq_nil_iff.mp rest other inAfter
    simp [mine] at none

/-- The cache flush lists every fragment of the pool, in address order. -/
theorem computeFlushCaches_spec {h : Heap} {ctx : Addr} {held : Finset BufPtr} {rest : List Addr}
    (legal : LegalInv h ctx held rest) (stale : Nat → Nat → CsRelocGem) (drm : CsDrm κ)
    (w : CsWorld κ) :
    ∃ cs, computeFlushCaches stale drm h ctx w = .ok (w.submit drm (h.contexts.cell ctx).fd cs) ∧
      cs.ring = some radeonCsRingCompute ∧ cs.ib = cacheFlushBuf ∧
      cs.handles = (h.entries rest).map fun e => BitVec.ofNat 32 (h.buffer e.bo).handle := by
  obtain ⟨crelocs, create, holds⟩ := ComputeRelocs.computeCreateRelocTable_spec stale legal
  refine ⟨radeonCs radeonCsRingCompute crelocs.entries cacheFlushBuf 1, ?_, rfl,
    radeonCs_ib _ _ _ _, ?_⟩
  · simp only [computeFlushCaches, create, ok_bind, Store.load_eq legal.owned.ctxLive]
  · rw [radeonCs_handles, holds.entries, List.map_map]
    rfl

/-- `waitBuffer` submits one cache flush, which lists the buffer, and sees it
through. -/
theorem waitBuffer_leads {h : Heap} {ctx : Addr} {held : Finset BufPtr} {rest : List Addr}
    (legal : LegalInv h ctx held rest) {buf : BufPtr} (inHeld : buf ∈ held)
    (waitable : h.Waitable ctx buf) (inOrder : drm.InOrder effect view patience)
    (taken : ∀ fd cs k, (drm.cs fd cs k).1 = 0)
    (zero : ∀ fd handle k, (drm.waitIdle fd handle k).1 = 0) (stale : Nat → Nat → CsRelocGem)
    (w : CsWorld κ) :
    ∃ w' flush, waitBuffer stale drm h ctx buf w = .ok w' ∧
      w'.submitted = w.submitted ++ [flush] ∧ flush.ring = some radeonCsRingCompute ∧
      flush.ib = cacheFlushBuf ∧
      flush.handles = (h.entries rest).map (fun e => BitVec.ofNat 32 (h.buffer e.bo).handle) ∧
      Leads effect view (h.contexts.cell ctx).fd w.kernel [⟨(h.contexts.cell ctx).fd, flush⟩]
        w'.kernel ∧
      (⟨(h.contexts.cell ctx).fd, flush⟩ : Job) ∉ (view w'.kernel).pending ∧
      ∀ i < (h.buffer buf).fragmentNumber, ∀ job ∈ (view w'.kernel).pending,
        ¬ job.Lists (h.contexts.cell ctx).fd (h.buffer (buf.add i)).handle := by
  obtain ⟨ret₁, w₁, wait₁, same₁, leads₁, -⟩ := computeBoWait_idle inOrder waitable w
  obtain ⟨flush, send, onCompute, ib, handles⟩ := computeFlushCaches_spec legal stale drm w₁
  have leads₂ := inOrder.submit w₁ _ flush (taken (h.contexts.cell ctx).fd _ _)
  obtain ⟨ret₃, w₃, wait₃, same₃, leads₃, idle, source⟩ := computeBoWait_idle inOrder waitable
    (w₁.submit drm (h.contexts.cell ctx).fd flush).2
  have idle := idle (by
    rcases source with done | ⟨fd, handle, k, rfl⟩
    · exact done
    · exact zero fd handle k)
  -- the flush lists the first fragment of the buffer, which is idle
  have listed : BitVec.ofNat 32 (h.buffer buf).handle ∈ flush.handles := by
    obtain ⟨e, member, same⟩ := legal.owned.listed buf inHeld 0 waitable.positive
    rw [BufPtr.add_zero] at same
    rw [handles, ← same]
    exact List.mem_map_of_mem member
  have leads := (leads₁.trans leads₂).trans leads₃
  rw [List.append_nil] at leads
  refine ⟨w₃, flush, ?_, ?_, onCompute, ib, handles, leads, fun member => ?_, idle⟩
  · simp only [waitBuffer, wait₁, ok_bind, send, wait₃]
  · rw [same₃, CsWorld.submit_submitted, same₁]
  · exact idle 0 waitable.positive _ member ⟨rfl, listed⟩

/-- **`waitBuffer` drains the compute ring.** When it returns, nothing this
process submitted to the compute ring before is left, whatever it lists, and
nothing that lists the buffer is left on any ring; what other processes have
there was accepted during the call. -/
theorem waitBuffer_drains {κ' : Type} {drm' : Drm κ'} {view' : Nat → κ' → Kernel}
    (honest : drm'.Honest view') (ctx : Addr) {s : Client κ'}
    (reach : (legalSystem drm' ctx).Reachable s) {buf : BufPtr} (held : buf ∈ s.held)
    (inOrder : drm.InOrder effect view patience) (grants : drm.Grants)
    (stale : Nat → Nat → CsRelocGem) (w : CsWorld κ) :
    ∃ w' es flush,
      waitBuffer stale (drm.patient (retryRounds view patience)) s.world.heap ctx buf w = .ok w' ∧
      w'.submitted = w.submitted ++ [flush] ∧ flush.ib = cacheFlushBuf ∧
      flush.handles = (s.world.heap.poolNodes ctx).tail.map (fun a =>
        BitVec.ofNat 32 (s.world.heap.buffer (s.world.heap.nodes.cell a).bo).handle) ∧
      Rings.Run Job.ring effect (view w.kernel) es (view w'.kernel) ∧
      (∀ job ∈ (view w'.kernel).pending, job.OnCompute →
        job ∈ Rings.accepted es ∧ job.fd ≠ (s.world.heap.contexts.cell ctx).fd) ∧
      ∀ i < (s.world.heap.buffer buf).fragmentNumber, ∀ job ∈ (view w'.kernel).pending,
        ¬ job.Lists (s.world.heap.contexts.cell ctx).fd
          (s.world.heap.buffer (buf.add i)).handle := by
  obtain ⟨rest, legal⟩ := (Client.inductive_ordered ctx honest).invariant reach
  obtain ⟨w', flush, wait, sent, onCompute, ib, handles, leads, gone, idle⟩ :=
    waitBuffer_leads legal held (legalSystem_waitable honest ctx reach held) inOrder.patient.1
      grants.cs (grants.patient_waitIdle inOrder) stale w
  obtain ⟨es, run, own⟩ := leads
  have nodes : (s.world.heap.poolNodes ctx).tail = rest := by
    rw [legal.owned.pool.poolNodes_eq]
    rfl
  refine ⟨w', es, flush, wait, sent, ib, ?_, run, ?_, idle⟩
  · rw [handles, nodes, Heap.entries, List.map_map]
    rfl
  · have onRing : (⟨(s.world.heap.contexts.cell ctx).fd, flush⟩ : Job).ring =
        some radeonCsRingCompute := onCompute
    exact @gone_with_last _ _ _ _ _ run _ _ [] _ onRing gone own

/-- Waiting for the larger buffer with that submission pending. -/
theorem waitBuffer_drains_onePending :
    ∃ s w', Client.run (limitedDrm .above 10) (fun s c _ => s.Legal 0 c) .empty
        [.alloc .above 104857600 2 4096, .alloc .above 5000 4 4096] = some s ∧
      waitBuffer (fun _ _ => ⟨7, 7, 7, 7⟩) ((lazyDrm fun _ u => u).patient (retryRounds id 0))
        s.world.heap 0 ⟨1, 0⟩ onePending = .ok w' ∧
      ∀ i < (s.world.heap.buffer ⟨1, 0⟩).fragmentNumber, ∀ job ∈ w'.kernel.pending,
        ¬ job.Lists (s.world.heap.contexts.cell 0).fd
          (s.world.heap.buffer ((BufPtr.mk 1 0).add i)).handle := by
  obtain ⟨s, run, reach, held, -⟩ := legalSystem_twoBuffers
  obtain ⟨w', es, flush, wait, -, -, -, -, -, idle⟩ := waitBuffer_drains
    (limitedDrm_honest .above 10) 0 reach held (lazyDrm_inOrder fun _ u => u) (lazyDrm_grants _)
    (fun _ _ => ⟨7, 7, 7, 7⟩) onePending
  exact ⟨s, w', run, wait, idle⟩

end RadeonsiCompute
