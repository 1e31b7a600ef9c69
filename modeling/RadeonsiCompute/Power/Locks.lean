import RadeonsiCompute.Power.Course

/-!
# Locks and vblank references

`setClocksVoltagesRaw_balanced_iff`: the function gives back its three locks and
its vblanks on every way but one. Under DYNPM, when the vertical blank that it
has waited for is over again, it returns in the middle, and everything stays
taken.
-/

namespace RadeonsiCompute

open Lib

def PmEvent.bracket : PmEvent → Bracket PmLock
  | .lock l => .takes l
  | .unlock l => .gives l
  | _ => .other

def PmEvent.got : PmEvent → Option Nat
  | .vblankGet i => some i
  | _ => none

def PmEvent.put : PmEvent → Option Nat
  | .vblankPut i => some i
  | _ => none

/-- Each CRTC that was got is put once, with no others. -/
def VblanksBalanced (t : List PmEvent) : Prop :=
  ∀ i, (t.filterMap PmEvent.put).count i = if i ∈ t.filterMap PmEvent.got then 1 else 0

/-- The locks are released in the reverse order, and the vblanks are balanced. -/
structure Balanced (t : List PmEvent) : Prop where
  locks : Bracket.run PmEvent.bracket [] t = some []
  vblanks : VblanksBalanced t

/-- The function reaches the `return` between locking and unlocking. -/
def ReturnsLocked (o : PmOutcomes) (new : Clocks) (d : PmDevice) : Prop :=
  Valid new ∧ Drains o d.ringReady ∧ o.guiIdle = true ∧ MissesVblank o d

section

variable {o : PmOutcomes} {new : Clocks} {d : PmDevice} {t : List PmEvent} {e : PmEvent}

/-- Neither a lock nor a vblank. -/
structure PmEvent.IsWork (e : PmEvent) : Prop where
  lock : e.bracket = .other
  got : e.got = none
  put : e.put = none

theorem isWork_of_isSetting (setting : e.isSetting = true) : e.IsWork := by
  cases e with
  | setVddc | setVddci | debugCheckInVbl | setEngineClock | setMemoryClock => exact ⟨rfl, rfl, rfl⟩
  | _ => cases setting

theorem drainRings_isWork (o : PmOutcomes) (rings : List Bool) :
    ∀ e ∈ (drainRings o 0 rings).1, e.IsWork :=
  forall_drainRings (fun _ => ⟨rfl, rfl, rfl⟩) rings 0

theorem preparation_isWork (o : PmOutcomes) (d : PmDevice) : ∀ e ∈ preparation o d, e.IsWork :=
  forall_preparation (fun _ => ⟨rfl, rfl, rfl⟩) ⟨rfl, rfl, rfl⟩ d

theorem display_isWork (d : PmDevice) : ∀ e ∈ display d, e.IsWork :=
  forall_display ⟨rfl, rfl, rfl⟩ ⟨rfl, rfl, rfl⟩ d

theorem setting_isWork (new : Clocks) (d : PmDevice) :
    ∀ e ∈ .syncWithVblank :: .prepare :: (setterCalls new d ++ [.finish]), e.IsWork := by
  have sync : PmEvent.IsWork .syncWithVblank := ⟨rfl, rfl, rfl⟩
  have prepare : PmEvent.IsWork .prepare := ⟨rfl, rfl, rfl⟩
  have finish : PmEvent.IsWork .finish := ⟨rfl, rfl, rfl⟩
  have setters : ∀ e ∈ setterCalls new d, e.IsWork := fun e member =>
    isWork_of_isSetting (setterCalls_isSetting new d e member)
  rw [List.forall_mem_cons, List.forall_mem_cons, List.forall_mem_append, List.forall_mem_singleton]
  exact ⟨sync, prepare, setters, finish⟩

theorem got_of_isWork (work : ∀ e ∈ t, e.IsWork) : t.filterMap PmEvent.got = [] :=
  List.filterMap_eq_nil_iff.mpr fun e member => (work e member).got

theorem put_of_isWork (work : ∀ e ∈ t, e.IsWork) : t.filterMap PmEvent.put = [] :=
  List.filterMap_eq_nil_iff.mpr fun e member => (work e member).put

/-! ## The locks -/

/-- What is done between the locks gives back what it takes. -/
theorem neutral_locked (inner : Bracket.Neutral PmEvent.bracket t) :
    Bracket.Neutral PmEvent.bracket (lockAll ++ (t ++ unlockAll)) := by
  have lock (l : PmLock) {t : List PmEvent} (inner : Bracket.Neutral PmEvent.bracket t) :
      Bracket.Neutral PmEvent.bracket (.lock l :: (t ++ [.unlock l])) := inner.wrap rfl rfl
  have locked := lock .structMutex (lock .mclkLock (lock .ringLock inner))
  simpa [lockAll, unlockAll] using locked

theorem neutral_of_isWork (work : ∀ e ∈ t, e.IsWork) : Bracket.Neutral PmEvent.bracket t :=
  Bracket.neutral_of_other fun e member => (work e member).lock

theorem neutral_gets (d : PmDevice) : Bracket.Neutral PmEvent.bracket (gets d) :=
  Bracket.neutral_of_other (forall_gets (fun _ => rfl) d)

theorem neutral_puts (d : PmDevice) : Bracket.Neutral PmEvent.bracket (puts d) :=
  Bracket.neutral_of_other (forall_puts (fun _ => rfl) d)

/-- The two loops, whatever work is done between them. -/
theorem neutral_through (o : PmOutcomes) (d : PmDevice) (work : ∀ e ∈ t, e.IsWork) :
    Bracket.Neutral PmEvent.bracket
      (lockAll ++ ((preparation o d ++ (gets d ++ (t ++ (puts d ++ display d)))) ++ unlockAll)) := by
  have start := neutral_of_isWork (preparation_isWork o d)
  have finish := neutral_of_isWork (display_isWork d)
  exact neutral_locked (start.append ((neutral_gets d).append
    ((neutral_of_isWork work).append ((neutral_puts d).append finish))))

theorem neutral_setClocksVoltagesRaw (frees : ¬ ReturnsLocked o new d) :
    Bracket.Neutral PmEvent.bracket (setClocksVoltagesRaw o new d).2 := by
  have way := course o new d
  generalize setClocksVoltagesRaw o new d = call at way ⊢
  cases way with
  | invalid => exact fun _ => rfl
  | stuck => exact neutral_locked (neutral_of_isWork (drainRings_isWork o d.ringReady))
  | missed valid drains idle misses => exact absurd ⟨valid, drains, idle, misses⟩ frees
  | busy =>
      have through := neutral_through o d (List.forall_mem_nil PmEvent.IsWork)
      rwa [List.nil_append] at through
  | done =>
      have through := neutral_through o d (setting_isWork new d)
      simpa using through

/-- The early `return` keeps all three. -/
theorem locks_of_returnsLocked (locked : ReturnsLocked o new d) :
    Bracket.run PmEvent.bracket [] (setClocksVoltagesRaw o new d).2 =
      some [.ringLock, .mclkLock, .structMutex] := by
  have way := course o new d
  generalize setClocksVoltagesRaw o new d = call at way ⊢
  cases way with
  | invalid invalid => exact absurd locked.1 invalid
  | stuck valid stuck => exact absurd locked.2.1 stuck
  | busy valid drains busy => exact absurd (busy.symm.trans locked.2.2.1) (by simp)
  | done valid drains idle waited => exact absurd locked.2.2.2 waited
  | missed =>
      have sync : Bracket.Neutral PmEvent.bracket [.syncWithVblank] :=
        Bracket.neutral_of_other (by simp [PmEvent.bracket])
      exact (neutral_of_isWork (preparation_isWork o d)).append ((neutral_gets d).append sync) _

/-! ## The vblanks -/

theorem got_gets (d : PmDevice) :
    (gets d).filterMap PmEvent.got = pickedCrtcs PmDevice.isActive d := by
  have same : PmEvent.got ∘ PmEvent.vblankGet = some := rfl
  rw [gets, List.filterMap_map, same, List.filterMap_some]

theorem put_puts (d : PmDevice) :
    (puts d).filterMap PmEvent.put = pickedCrtcs PmDevice.isRequested (gotten d) := by
  have same : PmEvent.put ∘ PmEvent.vblankPut = some := rfl
  rw [puts, List.filterMap_map, same, List.filterMap_some]

theorem put_gets (d : PmDevice) : (gets d).filterMap PmEvent.put = [] :=
  List.filterMap_eq_nil_iff.mpr (forall_gets (fun _ => rfl) d)

theorem got_puts (d : PmDevice) : (puts d).filterMap PmEvent.got = [] :=
  List.filterMap_eq_nil_iff.mpr (forall_puts (fun _ => rfl) d)

/-- Locking gets and puts nothing. -/
theorem filterMap_locked {f : PmEvent → Option Nat} (lock : ∀ l, f (.lock l) = none)
    (unlock : ∀ l, f (.unlock l) = none) :
    (lockAll ++ (t ++ unlockAll)).filterMap f = t.filterMap f := by
  simp [lockAll, unlockAll, lock, unlock]

theorem vblanks_of_isWork (work : ∀ e ∈ t, e.IsWork) : VblanksBalanced t := by
  intro i
  rw [put_of_isWork work, got_of_isWork work]
  simp

theorem vblanks_locked (inner : VblanksBalanced t) :
    VblanksBalanced (lockAll ++ (t ++ unlockAll)) := by
  intro i
  rw [filterMap_locked (fun _ => rfl) fun _ => rfl, filterMap_locked (fun _ => rfl) fun _ => rfl]
  exact inner i

theorem vblanks_through (o : PmOutcomes) (empty : d.reqVblank = 0) (work : ∀ e ∈ t, e.IsWork) :
    VblanksBalanced
      (lockAll ++ ((preparation o d ++ (gets d ++ (t ++ (puts d ++ display d)))) ++ unlockAll)) := by
  refine vblanks_locked fun i => ?_
  simp only [List.filterMap_append, put_of_isWork (preparation_isWork o d),
    got_of_isWork (preparation_isWork o d), put_of_isWork (display_isWork d),
    got_of_isWork (display_isWork d), put_of_isWork work, got_of_isWork work, put_gets, got_puts,
    got_gets, put_puts, requested_gotten empty, List.nil_append, List.append_nil]
  exact List.Nodup.count (nodup_pickedCrtcs PmDevice.isActive d)

theorem vblanks_setClocksVoltagesRaw (empty : d.reqVblank = 0)
    (frees : ¬ ReturnsLocked o new d) : VblanksBalanced (setClocksVoltagesRaw o new d).2 := by
  have way := course o new d
  generalize setClocksVoltagesRaw o new d = call at way ⊢
  cases way with
  | invalid => exact vblanks_of_isWork (List.forall_mem_nil _)
  | stuck => exact vblanks_locked (vblanks_of_isWork (drainRings_isWork o d.ringReady))
  | missed valid drains idle misses => exact absurd ⟨valid, drains, idle, misses⟩ frees
  | busy =>
      have through := vblanks_through o empty (List.forall_mem_nil PmEvent.IsWork)
      rwa [List.nil_append] at through
  | done =>
      have through := vblanks_through o empty (setting_isWork new d)
      simpa using through

/-! ## The function -/

theorem setClocksVoltagesRaw_balanced_iff (o : PmOutcomes) (new : Clocks) (d : PmDevice)
    (empty : d.reqVblank = 0) :
    Balanced (setClocksVoltagesRaw o new d).2 ↔ ¬ ReturnsLocked o new d := by
  constructor
  · intro balanced locked
    have held := balanced.locks.symm.trans (locks_of_returnsLocked locked)
    cases held
  · exact fun frees => ⟨neutral_setClocksVoltagesRaw frees [],
      vblanks_setClocksVoltagesRaw empty frees⟩

end

/-- In a vertical blank everything is given back. -/
theorem setClocksVoltagesRaw_balanced_iff_calm :
    (card .dynpm ⟨80000, 100000, 1000, 900⟩).reqVblank = 0 ∧
      Balanced (setClocksVoltagesRaw calm ⟨90000, 100000, 1100, 900⟩
        (card .dynpm ⟨80000, 100000, 1000, 900⟩)).2 :=
  ⟨rfl, (setClocksVoltagesRaw_balanced_iff calm _ _ rfl).mpr fun locked => locked.2.2.2.2 rfl⟩

/-- Outside of it both vblanks and all locks are kept. -/
theorem setClocksVoltagesRaw_keeps_locks :
    (card .dynpm ⟨80000, 100000, 1000, 900⟩).reqVblank = 0 ∧
      ¬ Balanced (setClocksVoltagesRaw { calm with inVbl := false } ⟨90000, 100000, 1100, 900⟩
        (card .dynpm ⟨80000, 100000, 1000, 900⟩)).2 :=
  ⟨rfl, fun balanced => absurd balanced.locks (by decide)⟩

end RadeonsiCompute
