import RadeonsiCompute.Lib.TSys
import RadeonsiCompute.Power.Store

/-!
# The attribute in use

Writes to `gpu_clocks` follow one another, and between them the rest of the
driver changes what it likes except the record of the clocks, the power method
included. That the attribute asks for the profile method keeps every write from
the early `return`: after any run no lock and no vblank is left taken, the
setters were called under all the locks only and with voltages in range only,
and the record says what the hardware runs at (`attributeSystem_safe`).
-/

namespace RadeonsiCompute

open Lib

/-! ## What the loops leave requested -/

theorem dismiss_isRequested_self (d : PmDevice) (i : Nat) : (d.dismiss i).isRequested i = false := by
  show (d.reqVblank &&& ~~~(1#32 <<< i)).getLsbD i = false
  by_cases small : i < 32
  · simp [small]
  · exact BitVec.getLsbD_of_ge _ _ (by omega)

theorem putVblanks_isRequested (is : List Nat) (j : Nat) : ∀ d : PmDevice,
    (putVblanks d is).1.isRequested j = (d.isRequested j && !decide (j ∈ is)) := by
  induction is with
  | nil =>
      intro d
      show d.isRequested j = _
      simp
  | cons i is ih =>
      intro d
      by_cases requested : d.isRequested i = true
      · have first : (putVblanks d (i :: is)).1 = (putVblanks (d.dismiss i) is).1 := by
          rw [putVblanks, crtcLoop_picked requested]
        rw [first, ih]
        by_cases same : j = i
        · subst same
          simp [dismiss_isRequested_self]
        · rw [dismiss_isRequested d same]
          simp [same]
      · have first : putVblanks d (i :: is) = putVblanks d is := crtcLoop_skipped requested is
        rw [first, ih]
        by_cases same : j = i
        · subst same
          simp [requested]
        · simp [same]

/-- The second loop dismisses all that the first one requested. -/
theorem finished_reqVblank {d : PmDevice} (empty : d.reqVblank = 0) (current : Clocks) :
    (finished d current).reqVblank = 0 := by
  have none (i : Nat) : d.isRequested i = false := by simp [PmDevice.isRequested, empty]
  by_cases installed : d.irqInstalled = true
  · refine BitVec.eq_of_getLsbD_eq fun i _ => ?_
    have irq : ((gotten d).running current).irqInstalled = true := by
      rw [PmDevice.running, gotten_eq]
      exact installed
    have crtcs : ((gotten d).running current).numCrtc = d.numCrtc := by
      rw [PmDevice.running, gotten_eq]
    show (finished d current).isRequested i = _
    rw [finished, forCrtcs, if_pos irq, crtcs, putVblanks_isRequested]
    show ((gotten d).isRequested i && _) = _
    rw [gotten, forCrtcs, if_pos installed, getVblanks_isRequested, none]
    cases decide (i ∈ List.range d.numCrtc) with
    | false => simp
    | true => simp
  · have irq : ¬ ((gotten d).running current).irqInstalled = true := by
      rw [PmDevice.running, gotten_eq]
      exact installed
    rw [finished, forCrtcs, if_neg irq]
    show (gotten d).reqVblank = 0
    rw [gotten, forCrtcs, if_neg installed, empty]

/-! ## One call -/

/-- Voltages as the attribute lets them through. -/
def PmEvent.InRange : PmEvent → Prop
  | .setVddc v => 100 ≤ v.toNat ∧ v.toNat ≤ 1410
  | .setVddci v => 100 ≤ v.toNat ∧ v.toNat ≤ 950
  | _ => True

/-- A setter is called. -/
def PmEvent.Setting (e : PmEvent) : Prop := e.isSetting = true

section

variable {o : PmOutcomes} {new : Clocks} {d : PmDevice} {t : List PmEvent} {held : List PmLock}

theorem inRange_of_still (still : Still t) : ∀ e ∈ t, e.InRange := by
  intro e member
  have other := still e member
  cases e with
  | setVddc | setVddci => cases other
  | _ => trivial

theorem inRange_setterCalls (vddc : 100 ≤ new.vddc.toNat ∧ new.vddc.toNat ≤ 1410)
    (vddci : 100 ≤ new.vddci.toNat ∧ new.vddci.toNat ≤ 950) (d : PmDevice) :
    ∀ e ∈ setterCalls new d, e.InRange := by
  have voltages : ∀ e ∈ voltageCalls new, e.InRange := by
    simp [voltageCalls, PmEvent.InRange, vddc, vddci]
  have clocks : ∀ e ∈ clockCalls new d, e.InRange := by
    refine List.forall_mem_append.mpr ⟨?_, ?_⟩
    · unfold engineCalls
      split
      · simp [PmEvent.InRange]
      · exact List.forall_mem_nil _
    · unfold memoryCalls
      split
      · simp [PmEvent.InRange]
      · exact List.forall_mem_nil _
  unfold setterCalls
  split
  · exact List.forall_mem_append.mpr ⟨clocks, voltages⟩
  · exact List.forall_mem_append.mpr ⟨voltages, clocks⟩

theorem inRange_setClocksVoltagesRaw (o : PmOutcomes)
    (vddc : 100 ≤ new.vddc.toNat ∧ new.vddc.toNat ≤ 1410)
    (vddci : 100 ≤ new.vddci.toNat ∧ new.vddci.toNat ≤ 950) (d : PmDevice) :
    ∀ e ∈ (setClocksVoltagesRaw o new d).2, e.InRange := by
  by_cases sets : Sets o new d
  · obtain ⟨-, before, after, stillBefore, stillAfter, trace⟩ := calls_of_sets sets
    rw [trace, List.forall_mem_append, List.forall_mem_append]
    exact ⟨inRange_of_still stillBefore, inRange_setterCalls vddc vddci d,
      inRange_of_still stillAfter⟩
  · exact inRange_of_still (calls_of_not_sets sets).2

theorem not_setting_of_still (still : Still t) : ∀ e ∈ t, ¬ e.Setting := by
  intro e member setting
  cases (still e member).symm.trans setting

/-- What stands between the locks, whatever work is done between the loops. -/
theorem through_other (o : PmOutcomes) (d : PmDevice) (work : ∀ e ∈ t, e.IsWork) :
    ∀ e ∈ preparation o d ++ (gets d ++ (t ++ (puts d ++ display d))), e.bracket = .other := by
  simp only [List.forall_mem_append]
  exact ⟨fun e member => (preparation_isWork o d e member).lock, forall_gets (fun _ => rfl) d,
    fun e member => (work e member).lock, forall_puts (fun _ => rfl) d,
    fun e member => (display_isWork d e member).lock⟩

theorem under_locked {inner : List PmEvent} (others : ∀ e ∈ inner, e.bracket = .other)
    (held : List PmLock) : Bracket.Under PmEvent.bracket PmEvent.Setting
      (.ringLock :: .mclkLock :: .structMutex :: held) held (lockAll ++ (inner ++ unlockAll)) := by
  have taking : Bracket.Under PmEvent.bracket PmEvent.Setting
      (.ringLock :: .mclkLock :: .structMutex :: held) held lockAll :=
    Bracket.under_of_not (not_setting_of_still still_lockAll)
  have taken : Bracket.run PmEvent.bracket held lockAll =
    some (.ringLock :: .mclkLock :: .structMutex :: held) := rfl
  refine taking.append taken ((Bracket.under_of_other others).append
    (Bracket.neutral_of_other others _) ?_)
  exact Bracket.under_of_not (not_setting_of_still still_unlockAll)

/-- The setters are called under the three locks. -/
theorem under_setClocksVoltagesRaw (o : PmOutcomes) (new : Clocks) (d : PmDevice)
    (held : List PmLock) : Bracket.Under PmEvent.bracket PmEvent.Setting
      (.ringLock :: .mclkLock :: .structMutex :: held) held (setClocksVoltagesRaw o new d).2 := by
  by_cases sets : Sets o new d
  swap
  · exact Bracket.under_of_not (not_setting_of_still (calls_of_not_sets sets).2)
  have way := course o new d
  generalize setClocksVoltagesRaw o new d = call at way ⊢
  cases way with
  | invalid invalid => exact absurd sets.1 invalid
  | stuck valid stuck => exact absurd sets.2.1 stuck
  | missed valid drains idle misses => exact absurd misses sets.2.2.2
  | busy valid drains busy => exact absurd (busy.symm.trans sets.2.2.1) (by simp)
  | done =>
      have inner := under_locked (through_other o d (setting_isWork new d)) held
      simpa using inner

/-- The CRTCs between the locks: those got are those put, in the same order. -/
theorem crtcs_through (o : PmOutcomes) (empty : d.reqVblank = 0) (work : ∀ e ∈ t, e.IsWork) :
    (lockAll ++ ((preparation o d ++ (gets d ++ (t ++ (puts d ++ display d)))) ++
        unlockAll)).filterMap PmEvent.got =
      (lockAll ++ ((preparation o d ++ (gets d ++ (t ++ (puts d ++ display d)))) ++
        unlockAll)).filterMap PmEvent.put := by
  rw [filterMap_locked (fun _ => rfl) fun _ => rfl, filterMap_locked (fun _ => rfl) fun _ => rfl]
  simp only [List.filterMap_append, put_of_isWork (preparation_isWork o d),
    got_of_isWork (preparation_isWork o d), put_of_isWork (display_isWork d),
    got_of_isWork (display_isWork d), put_of_isWork work, got_of_isWork work, put_gets, got_puts,
    got_gets, put_puts, requested_gotten empty, List.nil_append, List.append_nil]

/-- What a call leaves of the vblanks when it does not return early. -/
theorem crtcs_setClocksVoltagesRaw (empty : d.reqVblank = 0) (frees : ¬ ReturnsLocked o new d) :
    (setClocksVoltagesRaw o new d).2.filterMap PmEvent.got =
        (setClocksVoltagesRaw o new d).2.filterMap PmEvent.put ∧
      (setClocksVoltagesRaw o new d).1.reqVblank = 0 := by
  have way := course o new d
  generalize setClocksVoltagesRaw o new d = call at way ⊢
  cases way with
  | invalid => exact ⟨rfl, empty⟩
  | stuck =>
      refine ⟨?_, empty⟩
      rw [filterMap_locked (fun _ => rfl) fun _ => rfl, filterMap_locked (fun _ => rfl) fun _ => rfl,
        got_of_isWork (drainRings_isWork o d.ringReady),
        put_of_isWork (drainRings_isWork o d.ringReady)]
  | missed valid drains idle misses => exact absurd ⟨valid, drains, idle, misses⟩ frees
  | busy =>
      have through := crtcs_through o empty (List.forall_mem_nil PmEvent.IsWork)
      exact ⟨through, finished_reqVblank empty d.current⟩
  | done =>
      have through := crtcs_through o empty (setting_isWork new d)
      refine ⟨?_, finished_reqVblank empty (reached new d)⟩
      simpa using through

/-! ## One write -/

/-- What writes leave behind: what they took was given back, the setters were called under
all the locks and in range, and no CRTC is requested. -/
structure Kept (trace : List PmEvent) (device : PmDevice) : Prop where
  locks : Bracket.Neutral PmEvent.bracket trace
  guarded : Bracket.Under PmEvent.bracket PmEvent.Setting
    [.ringLock, .mclkLock, .structMutex, .pmMutex] [] trace
  vblanks : trace.filterMap PmEvent.got = trace.filterMap PmEvent.put
  requests : device.reqVblank = 0
  voltages : ∀ e ∈ trace, e.InRange

theorem kept_rejected (empty : d.reqVblank = 0) :
    Kept [.lock .pmMutex, .unlock .pmMutex] d where
  locks := by
    have nothing : Bracket.Neutral PmEvent.bracket ([] : List PmEvent) := fun _ => rfl
    exact nothing.wrap rfl rfl
  guarded := Bracket.under_of_not (not_setting_of_still still_rejected)
  vblanks := rfl
  requests := empty
  voltages := inRange_of_still still_rejected

/-- What is kept under the mutex is kept with it. -/
theorem kept_mutex {device : PmDevice} (locks : Bracket.Neutral PmEvent.bracket t)
    (guarded : Bracket.Under PmEvent.bracket PmEvent.Setting
      [.ringLock, .mclkLock, .structMutex, .pmMutex] [.pmMutex] t)
    (vblanks : t.filterMap PmEvent.got = t.filterMap PmEvent.put)
    (requests : device.reqVblank = 0) (voltages : ∀ e ∈ t, e.InRange) :
    Kept (.lock .pmMutex :: (t ++ [.unlock .pmMutex])) device where
  locks := locks.wrap rfl rfl
  guarded := by
    have locking : Bracket.Under PmEvent.bracket PmEvent.Setting
        [.ringLock, .mclkLock, .structMutex, .pmMutex] [] [.lock .pmMutex] :=
      Bracket.under_of_not (by simp [PmEvent.Setting, PmEvent.isSetting])
    have unlocking : Bracket.Under PmEvent.bracket PmEvent.Setting
        [.ringLock, .mclkLock, .structMutex, .pmMutex] [.pmMutex] [.unlock .pmMutex] :=
      Bracket.under_of_not (by simp [PmEvent.Setting, PmEvent.isSetting])
    exact locking.append rfl (guarded.append (locks _) unlocking)
  vblanks := by
    have alone (f : PmEvent → Option Nat) (lock : f (.lock .pmMutex) = none)
        (unlock : f (.unlock .pmMutex) = none) :
        (.lock .pmMutex :: (t ++ [.unlock .pmMutex])).filterMap f = t.filterMap f := by
      simp [lock, unlock]
    rw [alone _ rfl rfl, alone _ rfl rfl]
    exact vblanks
  requests := requests
  voltages := List.forall_mem_cons.mpr
    ⟨trivial, List.forall_mem_append.mpr ⟨voltages, List.forall_mem_singleton.mpr trivial⟩⟩

/-- A write keeps them, and leaves in the record what the hardware runs at. -/
theorem setPmClocks_kept {stack buf : List Byte} {count : Nat} {r : StoreResult}
    (empty : d.reqVblank = 0) (written : setPmClocks o stack buf count d = .ok r) :
    Kept r.trace r.device ∧ r.trace.foldl Clocks.after d.current = r.device.current := by
  have way := writeCourse o stack buf count d
  rw [written] at way
  cases way with
  | refused => exact ⟨kept_rejected empty, rfl⟩
  | rejected => exact ⟨kept_rejected empty, rfl⟩
  | passed profile short accepted =>
      -- under the profile method the early `return` is out of reach
      have frees : ¬ ReturnsLocked o ((scanLine buf).settings d.current).clocks d := by
        rintro ⟨-, -, -, dynpm, -⟩
        cases profile.symm.trans dynpm
      obtain ⟨crtcs, requests⟩ := crtcs_setClocksVoltagesRaw empty frees
      have vddc := accepted.vddc
      have vddci := accepted.vddci
      rw [← accepted.toNat_vddc] at vddc
      rw [← accepted.toNat_vddci] at vddci
      refine ⟨kept_mutex (neutral_setClocksVoltagesRaw frees)
        (under_setClocksVoltagesRaw o _ d [.pmMutex]) crtcs requests
        (inRange_setClocksVoltagesRaw o vddc vddci d), ?_⟩
      rw [List.foldl_cons, List.foldl_append]
      exact foldl_setClocksVoltagesRaw o _ d

end

/-! ## Runs -/

/-- The device, what its hardware runs at, and all that writes to the attribute have done. -/
structure AttributeState where
  device : PmDevice
  hw : Clocks
  trace : List PmEvent

inductive AttributeCall
  | write (o : PmOutcomes) (stack buf : List Byte) (count : Nat)
  | elsewhere (device : PmDevice)

/-- A write is a step if it does not run over `head`. The rest of the driver may change
anything but the record of the clocks and the requests. -/
inductive AttributeStep : AttributeState → AttributeCall → AttributeState → Prop
  | write {s o stack buf count r} : setPmClocks o stack buf count s.device = .ok r →
      AttributeStep s (.write o stack buf count)
        ⟨r.device, r.trace.foldl Clocks.after s.hw, s.trace ++ r.trace⟩
  | elsewhere {s device} : device.current = s.device.current →
      device.reqVblank = s.device.reqVblank →
      AttributeStep s (.elsewhere device) { s with device := device }

def attributeSystem : TSys AttributeState AttributeCall where
  init s := s.device.reqVblank = 0 ∧ s.hw = s.device.current ∧ s.trace = []
  step := AttributeStep

/-- All that was taken was given back, and the record says what the hardware runs at. -/
structure AttributeState.Safe (s : AttributeState) : Prop extends Kept s.trace s.device where
  record : s.hw = s.device.current

theorem Kept.append {t u : List PmEvent} {d d' : PmDevice} (before : Kept t d)
    (now : Kept u d') : Kept (t ++ u) d' where
  locks := before.locks.append now.locks
  guarded := before.guarded.append (before.locks []) now.guarded
  vblanks := by rw [List.filterMap_append, List.filterMap_append, before.vblanks, now.vblanks]
  requests := now.requests
  voltages := List.forall_mem_append.mpr ⟨before.voltages, now.voltages⟩

theorem attributeSystem_inductive : attributeSystem.Inductive AttributeState.Safe where
  init s start := by
    obtain ⟨empty, record, none⟩ := start
    refine ⟨?_, record⟩
    rw [none]
    exact ⟨fun _ => rfl, Bracket.under_of_not (List.forall_mem_nil _), rfl, empty,
      List.forall_mem_nil _⟩
  step s call s' safe step := by
    cases step with
    | write written =>
        obtain ⟨kept, record⟩ := setPmClocks_kept safe.requests written
        refine ⟨safe.append kept, ?_⟩
        rw [safe.record]
        exact record
    | elsewhere current requests =>
        refine ⟨⟨safe.locks, safe.guarded, safe.vblanks, ?_, safe.voltages⟩, ?_⟩
        · exact requests.trans safe.requests
        · exact safe.record.trans current.symm

/-- **The attribute is safe to use.** However it is written to, and whatever the rest of the
driver does in between, nothing stays taken, the setters are called under all four locks and
with voltages in range only, and the record says what the hardware runs at. -/
theorem attributeSystem_safe {s : AttributeState} (reach : attributeSystem.Reachable s) : s.Safe :=
  attributeSystem_inductive.invariant reach

/-- A write that is applied, a change of the power method, and a write that is refused. -/
theorem attributeSystem_safe_twoWrites :
    ∃ s : AttributeState, attributeSystem.Reachable s ∧ s.Safe ∧
      s.hw = ⟨90000, 100000, 1100, 900⟩ ∧ s.device.pmMethod = .dynpm := by
  obtain ⟨r, written, hw⟩ := Option.map_eq_some_iff.mp (show
    (setPmClocks calm [] (text "set 900 1000 1100 900\n") 22
      (card .profile ⟨80000, 100000, 1000, 900⟩)).toOption.map (fun r =>
        r.trace.foldl Clocks.after ⟨80000, 100000, 1000, 900⟩) =
      some ⟨90000, 100000, 1100, 900⟩ by decide +kernel)
  have start : attributeSystem.Reachable
      ⟨card .profile ⟨80000, 100000, 1000, 900⟩, ⟨80000, 100000, 1000, 900⟩, []⟩ :=
    .init ⟨rfl, rfl, rfl⟩
  have first := start.step (.write (toOption_eq_some.mp written))
  rw [hw] at first
  have switch : AttributeStep ⟨r.device, ⟨90000, 100000, 1100, 900⟩, [] ++ r.trace⟩
      (.elsewhere { r.device with pmMethod := .dynpm })
      ⟨{ r.device with pmMethod := .dynpm }, ⟨90000, 100000, 1100, 900⟩, [] ++ r.trace⟩ :=
    .elsewhere rfl rfl
  have refused : setPmClocks calm [] (text "set 300\n") 8 { r.device with pmMethod := .dynpm } =
      .ok ⟨-einval, { r.device with pmMethod := .dynpm }, [.lock .pmMutex, .unlock .pmMutex]⟩ := rfl
  have second := (first.step switch).step (.write refused)
  exact ⟨_, second, attributeSystem_safe second, rfl, rfl⟩

end RadeonsiCompute
