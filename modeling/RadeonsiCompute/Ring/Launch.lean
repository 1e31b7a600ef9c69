import RadeonsiCompute.Dispatch.Launch
import RadeonsiCompute.Ring.Finished

/-!
# What launches come to

`launch` hands in a stream and does not wait. The command processor takes the
stream apart and starts a kernel when the launch bit is written, with whatever
its registers then hold. `launches_run`: after any number of launches, when
`waitBuffer` returns, the kernels have run once each, in the order of the
launches, each with the registers its launch asked for, and nothing else has
touched the memory of the process.
-/

namespace RadeonsiCompute

open Lib

/-! ## The command processor -/

section CommandProcessor

variable {μ : Type} (kernel : (Nat → Dword) → μ → μ → Prop)

/-- The event starts a shader. -/
def CpEvent.Starts : CpEvent → Prop
  | .setShReg reg value => reg = Reg.computeDispatchInitiator.toNat ∧
      DispatchInitiator.computeShaderEn.get value = 1
  | .surfaceSync .. => False

instance : DecidablePred CpEvent.Starts
  | .setShReg _ _ => inferInstanceAs (Decidable (_ ∧ _))
  | .surfaceSync .. => inferInstanceAs (Decidable False)

/-- What the events make of a memory: `kernel` is run at each start, on the registers as
they are by then. -/
def CpRuns : List CpEvent → (Nat → Dword) → μ → μ → Prop
  | [], _, mem, mem' => mem' = mem
  | e :: es, regs, mem, mem' =>
      if e.Starts then
        ∃ mid, kernel (runEvents [e] regs) mem mid ∧ CpRuns es (runEvents [e] regs) mid mem'
      else CpRuns es (runEvents [e] regs) mem mem'

variable {kernel}

/-- Events that start nothing only change the registers. -/
theorem cpRuns_append {es es' : List CpEvent} (quiet : ∀ e ∈ es, ¬ e.Starts) :
    ∀ {regs : Nat → Dword} {mem mem' : μ},
      CpRuns kernel (es ++ es') regs mem mem' ↔ CpRuns kernel es' (runEvents es regs) mem mem' := by
  induction es with
  | nil => intro regs mem mem'; exact Iff.rfl
  | cons e es ih =>
      intro regs mem mem'
      rw [List.forall_mem_cons] at quiet
      show CpRuns kernel (e :: (es ++ es')) regs mem mem' ↔
        CpRuns kernel es' (runEvents ([e] ++ es) regs) mem mem'
      rw [CpRuns, if_neg quiet.1, ih quiet.2, runEvents_append]

/-- The registers hold what the launch asks for, and the initiator starts it. -/
structure Started (args : LaunchArgs) (va : BitVec 64) (regs : Nat → Dword) : Prop where
  dispatched : Dispatched regs args.state va
  initiator : regs Reg.computeDispatchInitiator.toNat = dispatchInitiator
  exact : args.Fits → ExactLaunch regs args

/-- The stream of a launch starts its kernel once. -/
theorem cpRuns_launch {args : LaunchArgs} (checked : args.Checked) {va : BitVec 64}
    {regs : Nat → Dword} {mem mem' : μ}
    (runs : CpRuns kernel (args.state.setup va ++ cacheFlush :: launchEvents) regs mem mem') :
    ∃ regs', Started args va regs' ∧ kernel regs' mem mem' := by
  have few : args.state.userDataLength.toNat ≤ 16 := by
    rw [checked.userDataLength]
    exact checked.userData
  have quiet : ∀ e ∈ args.state.setup va, ¬ e.Starts := by
    intro e member
    obtain ⟨reg, value, rfl, -, -, other⟩ := ComputeState.setup_mem few e member
    exact fun starts => other starts.1
  rw [cpRuns_append quiet] at runs
  have dispatched := args.state.setup_dispatched va regs
  generalize runEvents (args.state.setup va) regs = ready at runs dispatched
  -- the flush starts nothing, the first write of the initiator does, and the second does not
  have started : (CpEvent.setShReg Reg.computeDispatchInitiator.toNat dispatchInitiator).Starts :=
    ⟨rfl, by decide⟩
  have cleared : ¬ (CpEvent.setShReg Reg.computeDispatchInitiator.toNat 0).Starts :=
    fun starts => absurd starts.2 (by decide)
  have flush : ¬ cacheFlush.Starts := fun starts => starts
  rw [CpRuns, if_neg flush, launchEvents, CpRuns, if_pos started] at runs
  obtain ⟨mid, ran, rest⟩ := runs
  rw [CpRuns, if_neg cleared] at rest
  obtain rfl : mem' = mid := rest
  have after := dispatched.update dispatchInitiator
  exact ⟨_, ⟨after, Function.update_self _ _ _, (after.exactLaunch_iff checked).mpr⟩, ran⟩

/-- The kernels of the launches, one after the other, on a memory. -/
inductive Launched (kernel : (Nat → Dword) → μ → μ → Prop) (h : Heap) :
    List LaunchArgs → μ → μ → Prop
  | nil {mem} : Launched kernel h [] mem mem
  | cons {args argss regs mem mid mem'} :
      Started args (.ofNat 64 (h.buffer args.code).va) regs → kernel regs mem mid →
      Launched kernel h argss mid mem' → Launched kernel h (args :: argss) mem mem'

/-- In the memory of descriptor `fd`, a stream it has on the compute ring does what
the command processor makes of it, whatever the registers held before. -/
def RunsStreams (effect : Job → μ → μ → Prop) (fd : Nat)
    (kernel : (Nat → Dword) → μ → μ → Prop) : Prop :=
  ∀ job events mem mem', job.Of fd radeonCsRingCompute → cpEvents job.cs.ib = some events →
    effect job mem mem' → ∃ regs, CpRuns kernel events regs mem mem'

end CommandProcessor

/-! ## Handing them in -/

theorem LaunchArgs.Checked.check {args : LaunchArgs} (checked : args.Checked) :
    args.check = .ok () := by
  have localMemSize : args.localMemSize.sle (32 * 1024) = true :=
    BitVec.sle_iff_toInt_le.mpr checked.localMemSize
  have vgprnum : args.vgprnum.slt 257 = true := BitVec.slt_iff_toInt_lt.mpr checked.vgprnum
  have sgprnum : args.sgprnum.slt 129 = true := BitVec.slt_iff_toInt_lt.mpr checked.sgprnum
  simp only [LaunchArgs.check, assertThat_ok localMemSize, assertThat_ok vgprnum,
    assertThat_ok sgprnum, assertThat_ok checked.lengths, assertThat_ok checked.few,
    assertThat_ok checked.some, assertThat_ok checked.userData, ok_bind]

variable {κ σ : Type} {drm : CsDrm κ} {view : κ → Rings Job σ} {effect : Job → σ → σ → Prop}
  {patience : Nat} {h : Heap} {ctx : Addr}

/-- Everything a launch names can be waited for, and its arguments pass the assertions. -/
structure LaunchReady (h : Heap) (ctx : Addr) (args : LaunchArgs) : Prop where
  checked : args.Checked
  code : h.Waitable ctx args.code
  used : ∀ bo ∈ args.usedMemories, h.Waitable ctx bo

/-- The handles of the fragments of the buffers. -/
def Heap.handlesOf (h : Heap) (bos : List BufPtr) : List Dword :=
  bos.flatMap fun bo => (List.range' 0 (h.buffer bo).fragmentNumber).map fun i =>
    .ofNat 32 (h.buffer (bo.add i)).handle

/-- The submission of a launch. -/
structure LaunchCs (h : Heap) (args : LaunchArgs) (cs : RadeonCs) : Prop where
  ring : cs.ring = some radeonCsRingCompute
  handles : cs.handles = h.handlesOf args.usedMemories
  events : cpEvents cs.ib =
    some (args.state.setup (.ofNat 64 (h.buffer args.code).va) ++ cacheFlush :: launchEvents)

theorem foldlM_pushReloc {bos : List BufPtr} (used : ∀ bo ∈ bos, h.Waitable ctx bo) :
    ∃ relocs, bos.foldlM (computePushReloc h) [] = .ok relocs ∧
      relocs.map (fun r => BitVec.ofNat 32 r.handle) = h.handlesOf bos := by
  have valid := fun bo member => And.intro (used bo member).self (used bo member).valid
  refine ⟨_, foldlM_computePushReloc valid [], ?_⟩
  rw [List.nil_append, List.map_flatMap]
  refine List.flatMap_congr fun bo _ => ?_
  rw [List.map_map]
  rfl

/-- A launch that is ready is accepted. -/
theorem launch_leads (inOrder : drm.InOrder effect view patience)
    (taken : ∀ fd cs k, (drm.cs fd cs k).1 = 0) {args : LaunchArgs}
    (ready : LaunchReady h ctx args) (w : CsWorld κ) :
    ∃ w' cs, launch drm h ctx args w = .ok w' ∧ LaunchCs h args cs ∧
      w'.submitted = w.submitted ++ [cs] ∧
      Leads effect view (h.contexts.cell ctx).fd w.kernel [⟨(h.contexts.cell ctx).fd, cs⟩]
        w'.kernel := by
  obtain ⟨relocs, pushed, handles⟩ := foldlM_pushReloc ready.used
  have few : args.state.userDataLength.toNat ≤ 16 := by
    rw [ready.checked.userDataLength]
    exact ready.checked.userData
  obtain ⟨buf, emitted, -, events⟩ := computeStateBuf_spec few
    (.ofNat 64 (h.buffer args.code).va)
  have sent := taken (h.contexts.cell ctx).fd (radeonCs radeonCsRingCompute relocs buf 0) w.kernel
  refine ⟨(w.submit drm (h.contexts.cell ctx).fd (radeonCs radeonCsRingCompute relocs buf 0)).2,
    radeonCs radeonCsRingCompute relocs buf 0, ?_, ⟨rfl, ?_, ?_⟩, rfl, inOrder.submit w _ _ sent⟩
  · have answer : (w.submit drm (h.contexts.cell ctx).fd
        (radeonCs radeonCsRingCompute relocs buf 0)).1 = 0 := sent
    have emission : computeEmitComputeStateManualRelocs drm h ctx args.state relocs w =
        .ok (w.submit drm (h.contexts.cell ctx).fd
          (radeonCs radeonCsRingCompute relocs buf 0)) := by
      have loaded : h.loadBuffer args.state.binary = .ok (h.buffer args.code) :=
        Heap.loadBuffer_eq ready.code.self
      simp only [computeEmitComputeStateManualRelocs, loaded, ok_bind, emitted,
        Store.load_eq ready.code.ctxLive]
      rfl
    simp only [launch, ready.checked.check, pushed, ok_bind, emission]
    rw [if_neg (not_not.mpr answer)]
  · rw [radeonCs_handles, handles]
  · rw [radeonCs_ib]
    exact events

/-- So are several, in their order. -/
theorem launches_lead (inOrder : drm.InOrder effect view patience)
    (taken : ∀ fd cs k, (drm.cs fd cs k).1 = 0) (argss : List LaunchArgs) :
    (∀ args ∈ argss, LaunchReady h ctx args) → ∀ w : CsWorld κ,
      ∃ w' css, argss.foldlM (fun w args => launch drm h ctx args w) w = .ok w' ∧
        List.Forall₂ (LaunchCs h) argss css ∧ w'.submitted = w.submitted ++ css ∧
        Leads effect view (h.contexts.cell ctx).fd w.kernel
          (css.map fun cs => ⟨(h.contexts.cell ctx).fd, cs⟩) w'.kernel := by
  induction argss with
  | nil =>
      intro _ w
      exact ⟨w, [], rfl, .nil, (List.append_nil _).symm, .refl _ _⟩
  | cons args argss ih =>
      intro ready w
      rw [List.forall_mem_cons] at ready
      obtain ⟨w₁, cs, first, shape, sent, leads⟩ := launch_leads inOrder taken ready.1 w
      obtain ⟨w₂, css, rest, shapes, sent', leads'⟩ := ih ready.2 w₁
      refine ⟨w₂, cs :: css, ?_, .cons shape shapes, ?_, leads.trans leads'⟩
      · rw [List.foldlM_cons, first, ok_bind, rest]
      · rw [sent', sent, List.append_assoc]
        rfl

/-! ## What they come to -/

/-- Launches with a flush behind them, worked off one after the other. -/
theorem launched_of_serial {kernel : (Nat → Dword) → σ → σ → Prop} {fd : Nat}
    (runs : RunsStreams effect fd kernel) {flush : RadeonCs}
    (onRing : flush.ring = some radeonCsRingCompute) (ib : flush.ib = cacheFlushBuf)
    {argss : List LaunchArgs} {css : List RadeonCs} (shapes : List.Forall₂ (LaunchCs h) argss css) :
    (∀ args ∈ argss, LaunchReady h ctx args) → ∀ {mem mem' : σ},
      Rings.Serial effect (css.map (fun cs => ⟨fd, cs⟩) ++ [⟨fd, flush⟩]) mem mem' →
      Launched kernel h argss mem mem' := by
  induction shapes with
  | nil =>
      intro _ mem mem' serial
      cases serial with
      | cons does rest =>
          cases rest with
          | nil =>
              have events : cpEvents flush.ib = some [cacheFlush] := by
                rw [ib]
                exact cacheFlushBuf_events
              obtain ⟨regs, same⟩ := runs ⟨fd, flush⟩ _ _ _ ⟨rfl, onRing⟩ events does
              have quiet : ¬ cacheFlush.Starts := fun starts => starts
              rw [CpRuns, if_neg quiet] at same
              obtain rfl : mem' = mem := same
              exact .nil
  | @cons args cs argss css shape _ ih =>
      intro ready mem mem' serial
      rw [List.forall_mem_cons] at ready
      cases serial with
      | cons does rest =>
          obtain ⟨regs, stream⟩ := runs ⟨fd, cs⟩ _ _ _ ⟨rfl, shape.ring⟩ shape.events does
          obtain ⟨regs', started, ran⟩ := cpRuns_launch ready.1.checked stream
          exact .cons started ran (ih ready.2 rest)

/-- All of it goes to the compute ring. -/
theorem launches_onRing {flush : RadeonCs} {argss : List LaunchArgs} {css : List RadeonCs}
    (shapes : List.Forall₂ (LaunchCs h) argss css) (onRing : flush.ring = some radeonCsRingCompute)
    (fd : Nat) : ∀ job ∈ css.map (fun cs => (⟨fd, cs⟩ : Job)) ++ [⟨fd, flush⟩],
      job.ring = some radeonCsRingCompute := by
  intro job member
  rcases List.mem_append.mp member with launch | last
  · obtain ⟨cs, inCss, rfl⟩ := List.mem_map.mp launch
    obtain ⟨i, hi, rfl⟩ := List.mem_iff_getElem.mp inCss
    exact (shapes.get (by rw [shapes.length_eq]; exact hi) hi).ring
  · rw [List.mem_singleton.mp last]
    exact onRing

/-- **The launches have run** between `rs` and `rs'`: what the descriptor had on the
compute ring before was finished first, and then their kernels ran, one after the other. -/
structure LaunchesRun (effect : Job → σ → σ → Prop) (kernel : (Nat → Dword) → σ → σ → Prop)
    (h : Heap) (fd : Nat) (argss : List LaunchArgs) (rs rs' : Rings Job σ) : Prop where
  ran : ∃ es es' mid, Rings.Run Job.ring effect rs es mid ∧ Rings.Run Job.ring effect mid es' rs' ∧
    (Rings.finished es).filter (Job.Of fd radeonCsRingCompute) =
      rs.pending.filter (Job.Of fd radeonCsRingCompute) ∧
    Launched kernel h argss mid.state rs'.state
  done : ∀ job ∈ rs'.pending, ¬ job.Of fd radeonCsRingCompute
  direct : (∀ job ∈ rs.pending, ¬ job.Of fd radeonCsRingCompute) →
    Launched kernel h argss rs.state rs'.state

section Memory

variable {β : Type} {drm : CsDrm κ} {view : κ → Rings Job (Nat → β)}
  {effect : Job → (Nat → β) → (Nat → β) → Prop}

/-- In a history whose own submissions are launches and a flush, the last of which is gone. -/
theorem launchesRun_of_run {kernel : (Nat → Dword) → (Nat → β) → (Nat → β) → Prop} {fd : Nat}
    {rs rs' : Rings Job (Nat → β)} {es : List (RingEvent Job)}
    (run : Rings.Run Job.ring effect rs es rs') (runs : RunsStreams effect fd kernel)
    (quiet : Undisturbed effect rs.pending fd radeonCsRingCompute Set.univ)
    {argss : List LaunchArgs} {css : List RadeonCs} (shapes : List.Forall₂ (LaunchCs h) argss css)
    (ready : ∀ args ∈ argss, LaunchReady h ctx args) {flush : RadeonCs}
    (flushRing : flush.ring = some radeonCsRingCompute) (ib : flush.ib = cacheFlushBuf)
    (own : (Rings.accepted es).filter (fun job => job.fd = fd) =
      css.map (fun cs => ⟨fd, cs⟩) ++ [⟨fd, flush⟩])
    (gone : ⟨fd, flush⟩ ∉ rs'.pending) : LaunchesRun effect kernel h fd argss rs rs' := by
  have onRing := launches_onRing shapes flushRing fd
  have alone : ∀ job ∈ Rings.finished es, ¬ job.Of fd radeonCsRingCompute → ∀ mem mem',
      effect job mem mem' → mem' = mem := by
    intro job member other mem mem' does
    funext a
    exact quiet.finished run own onRing job member other mem mem' does a (Set.mem_univ a)
  obtain ⟨left, finished⟩ := run.emptied Job.Of.same (accepted_of_own own onRing) gone
  obtain ⟨es₁, es₂, mid, cut, before, after, first, second⟩ := run.cut finished
  have early := before.serial (Job.Of fd radeonCsRingCompute) fun job member =>
    alone job (by rw [cut, Rings.finished_append]; exact List.mem_append_left _ member)
  have late := after.serial (Job.Of fd radeonCsRingCompute) fun job member =>
    alone job (by rw [cut, Rings.finished_append]; exact List.mem_append_right _ member)
  rw [second] at late
  have launched := launched_of_serial runs flushRing ib shapes ready late
  refine ⟨⟨es₁, es₂, mid, before, after, first, launched⟩, fun job member mine => ?_, ?_⟩
  · exact List.filter_eq_nil_iff.mp left job member (by simpa using mine)
  · intro nothing
    have none : rs.pending.filter (Job.Of fd radeonCsRingCompute) = [] :=
      List.filter_eq_nil_iff.mpr fun job member mine => nothing job member (by simpa using mine)
    rw [first, none] at early
    generalize mid.state = start at early launched
    cases early with
    | nil => exact launched

/-- While a launch is under way, what its kernel leaves alone stays as it is. -/
theorem spared_of_run {kernel : (Nat → Dword) → (Nat → β) → (Nat → β) → Prop} {fd a : Nat}
    {rs rs' : Rings Job (Nat → β)} {es : List (RingEvent Job)}
    (run : Rings.Run Job.ring effect rs es rs') (runs : RunsStreams effect fd kernel)
    (isolated : Isolated effect fd) (idle : ∀ job ∈ rs.pending, job.fd ≠ fd) {args : LaunchArgs}
    (checked : args.Checked) {cs : RadeonCs} (shape : LaunchCs h args cs)
    (own : (Rings.accepted es).filter (fun job => job.fd = fd) = [⟨fd, cs⟩])
    (spares : ∀ regs mem mem', Started args (.ofNat 64 (h.buffer args.code).va) regs →
      kernel regs mem mem' → mem' a = mem a) : rs'.state a = rs.state a := by
  refine run.keeps (P := fun mem => mem a = rs.state a) (fun job member mem mem' does same => ?_) rfl
  by_cases mine : job.fd = fd
  · -- it can only be the launch
    have accepted := (run.finished_mem job member).resolve_left fun pending => idle job pending mine
    have inOwn : job ∈ (Rings.accepted es).filter (fun job => job.fd = fd) :=
      List.mem_filter.mpr ⟨accepted, by simpa using mine⟩
    rw [own] at inOwn
    obtain rfl := List.mem_singleton.mp inOwn
    obtain ⟨regs, stream⟩ := runs ⟨fd, cs⟩ _ _ _ ⟨rfl, shape.ring⟩ shape.events does
    obtain ⟨regs', started, ran⟩ := cpRuns_launch checked stream
    rw [spares regs' mem mem' started ran, same]
  · rw [isolated job mem mem' mine does, same]

end Memory

/-! ## Hardware that runs them -/

/-- A command processor whose kernels are functions. -/
def cpExec {μ : Type} (kernel : (Nat → Dword) → μ → μ) : List CpEvent → (Nat → Dword) → μ → μ
  | [], _, mem => mem
  | e :: es, regs, mem =>
      let regs := runEvents [e] regs
      cpExec kernel es regs (if e.Starts then kernel regs mem else mem)

theorem cpRuns_cpExec {μ : Type} (kernel : (Nat → Dword) → μ → μ) (events : List CpEvent) :
    ∀ (regs : Nat → Dword) (mem : μ),
      CpRuns (fun regs mem mem' => mem' = kernel regs mem) events regs mem
        (cpExec kernel events regs mem) := by
  induction events with
  | nil => intro regs mem; rfl
  | cons e es ih =>
      intro regs mem
      rw [CpRuns, cpExec]
      by_cases starts : e.Starts
      · rw [if_pos starts, if_pos starts]
        exact ⟨_, rfl, ih _ _⟩
      · rw [if_neg starts, if_neg starts]
        exact ih _ _

/-- In the memory of descriptor 3, the streams it has on the compute ring. -/
def streamExec {μ : Type} (kernel : (Nat → Dword) → μ → μ) (job : Job) (mem : μ) : μ :=
  if job.Of 3 radeonCsRingCompute then
    ((cpEvents job.cs.ib).map fun events => cpExec kernel events (fun _ => 0) mem).getD mem
  else mem

theorem runsStreams_streamExec {μ : Type} (kernel : (Nat → Dword) → μ → μ) :
    RunsStreams (fun (job : Job) (mem mem' : μ) => mem' = streamExec kernel job mem) 3
      fun regs mem mem' => mem' = kernel regs mem := by
  intro job events mem mem' mine decoded does
  refine ⟨fun _ => 0, ?_⟩
  rw [does, streamExec, if_pos mine, decoded]
  exact cpRuns_cpExec kernel events _ mem

/-- A launch of that many groups on the smaller of two buffers. -/
def LaunchArgs.onBuffer (groups : SizeT) : LaunchArgs :=
  { LaunchArgs.groups [] with blockDim := [groups], code := ⟨2, 0⟩, usedMemories := [⟨1, 0⟩] }

theorem LaunchArgs.checked_onBuffer (groups : SizeT) : (LaunchArgs.onBuffer groups).Checked where
  localMemSize := by show (32 * 1024#32).toInt ≤ 32 * 1024; decide
  vgprnum := by show (30#32).toInt < 257; decide
  sgprnum := by show (20#32).toInt < 129; decide
  lengths := rfl
  few := by show 1 ≤ 3; decide
  some := by show 1 > 0; decide
  userData := by show 2 ≤ 16; decide

end RadeonsiCompute
