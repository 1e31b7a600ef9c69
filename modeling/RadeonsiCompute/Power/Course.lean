import RadeonsiCompute.Power.Code

/-!
# The ways through `radeon_set_clocks_voltages_raw`

`course` says once how the function can end, with what it did on the way and
the conditions for it. The proofs about locks, voltages and the attribute are
case analyses of it. Before that the three loops: what each traces, and the one
field that the loops over the CRTCs change.
-/

namespace RadeonsiCompute

open Lib

section Loops

variable {o : PmOutcomes} {d : PmDevice} {i : Nat} {is : List Nat}

/-! ## Waiting for the rings -/

/-- The rings that are ready drain. -/
def Drains (o : PmOutcomes) (ringReady : List Bool) : Prop :=
  ∀ i, ringReady[i]? = some true → o.fenceWait i = 0

theorem drainRings_from (rings : List Bool) (i : Nat) :
    (drainRings o i rings).2 = true ↔
      ∀ k, rings[k]? = some true → o.fenceWait (i + k) = 0 := by
  induction rings generalizing i with
  | nil => simp [drainRings]
  | cons ready rings ih =>
      have shift : (∀ k, rings[k]? = some true → o.fenceWait (i + 1 + k) = 0) ↔
          ∀ k, (ready :: rings)[k + 1]? = some true → o.fenceWait (i + (k + 1)) = 0 := by
        refine forall_congr' fun k => ?_
        rw [List.getElem?_cons_succ, Nat.add_assoc i 1 k, Nat.add_comm 1 k]
      have split : (∀ k, (ready :: rings)[k]? = some true → o.fenceWait (i + k) = 0) ↔
          (ready = true → o.fenceWait i = 0) ∧
            ∀ k, (ready :: rings)[k + 1]? = some true → o.fenceWait (i + (k + 1)) = 0 := by
        constructor
        · intro all
          exact ⟨fun first => all 0 (congrArg some first), fun k => all (k + 1)⟩
        · intro both k
          cases k with
          | zero => exact fun first => both.1 (Option.some.inj first)
          | succ k => exact both.2 k
      rw [split, ← shift, ← ih (i + 1)]
      cases ready with
      | false => simp [drainRings]
      | true =>
          by_cases drained : o.fenceWait i = 0
          · simp [drainRings, drained]
          · simp [drainRings, drained]

theorem drainRings_iff (rings : List Bool) :
    (drainRings o 0 rings).2 = true ↔ Drains o rings := by
  rw [drainRings_from, Drains]
  simp only [Nat.zero_add]

theorem forall_drainRings {p : PmEvent → Prop} (wait : ∀ k, p (.waitEmpty k))
    (rings : List Bool) (i : Nat) : ∀ e ∈ (drainRings o i rings).1, p e := by
  induction rings generalizing i with
  | nil => exact List.forall_mem_nil p
  | cons ready rings ih =>
      cases ready with
      | false => exact ih (i + 1)
      | true =>
          by_cases drained : o.fenceWait i = 0
          · rw [drainRings, if_pos rfl, if_pos drained]
            exact List.forall_mem_cons.mpr ⟨wait i, ih (i + 1)⟩
          · rw [drainRings, if_pos rfl, if_neg drained]
            exact List.forall_mem_singleton.mpr (wait i)

/-! ## The CRTCs -/

section CrtcLoop

variable {picked : PmDevice → Nat → Bool} {change : PmDevice → Nat → PmDevice}
  {call : Nat → PmEvent}

theorem crtcLoop_picked (pick : picked d i = true) (is : List Nat) :
    crtcLoop picked change call d (i :: is) =
      ((crtcLoop picked change call (change d i) is).1,
        call i :: (crtcLoop picked change call (change d i) is).2) := if_pos pick

theorem crtcLoop_skipped (skip : ¬ picked d i = true) (is : List Nat) :
    crtcLoop picked change call d (i :: is) = crtcLoop picked change call d is := if_neg skip

/-- The calls are for those picked at the start, if a change is about its own CRTC only. -/
theorem crtcLoop_trace (others : ∀ d i j, j ≠ i → picked (change d i) j = picked d j)
    (d : PmDevice) (distinct : is.Nodup) :
    (crtcLoop picked change call d is).2 = (is.filter (picked d)).map call := by
  induction is generalizing d with
  | nil => rfl
  | cons i is ih =>
      rw [List.nodup_cons] at distinct
      by_cases pick : picked d i = true
      · have same : is.filter (picked (change d i)) = is.filter (picked d) :=
          List.filter_congr fun j later =>
            others d i j fun equal => distinct.1 (equal ▸ later)
        rw [List.filter_cons_of_pos pick, List.map_cons, crtcLoop_picked pick, ih _ distinct.2,
          same]
      · rw [List.filter_cons_of_neg pick, crtcLoop_skipped pick, ih _ distinct.2]

theorem crtcLoop_device
    (keeps : ∀ d i, change d i = { d with reqVblank := (change d i).reqVblank })
    (d : PmDevice) (is : List Nat) :
    (crtcLoop picked change call d is).1 =
      { d with reqVblank := (crtcLoop picked change call d is).1.reqVblank } := by
  induction is generalizing d with
  | nil => rfl
  | cons i is ih =>
      by_cases pick : picked d i = true
      · rw [crtcLoop_picked pick, ih, keeps d i]
      · rw [crtcLoop_skipped pick, ih]

end CrtcLoop

theorem request_isActive (d : PmDevice) (i j : Nat) :
    (d.request i).isActive j = d.isActive j := rfl

theorem request_isRequested (d : PmDevice) {i : Nat} (small : i < 32) (j : Nat) :
    (d.request i).isRequested j = (d.isRequested j || decide (j = i)) := by
  show (d.reqVblank ||| 1#32 <<< i).getLsbD j = (d.reqVblank.getLsbD j || decide (j = i))
  simp only [BitVec.getLsbD_or, BitVec.getLsbD_shiftLeft, BitVec.getLsbD_one]
  grind

theorem dismiss_isRequested (d : PmDevice) {i j : Nat} (apart : j ≠ i) :
    (d.dismiss i).isRequested j = d.isRequested j := by
  show (d.reqVblank &&& ~~~(1#32 <<< i)).getLsbD j = d.reqVblank.getLsbD j
  simp only [BitVec.getLsbD_and, BitVec.getLsbD_not, BitVec.getLsbD_shiftLeft,
    BitVec.getLsbD_one]
  by_cases small : j < 32
  · grind
  · rw [BitVec.getLsbD_of_ge _ _ (by omega), Bool.false_and]

/-- No bit beyond the width of the word is active. -/
theorem getVblanks_isRequested (d : PmDevice) (is : List Nat) (j : Nat) :
    (getVblanks d is).1.isRequested j = (d.isRequested j || decide (j ∈ is) && d.isActive j) := by
  induction is generalizing d with
  | nil => simp [getVblanks, crtcLoop]
  | cons i is ih =>
      by_cases active : d.isActive i = true
      · have first : (getVblanks d (i :: is)).1 = (getVblanks (d.request i) is).1 := by
          rw [getVblanks, crtcLoop_picked active]
        rw [first, ih, request_isRequested d (BitVec.lt_of_getLsbD active), request_isActive]
        by_cases same : j = i
        · subst same
          simp [active]
        · simp [same]
      · have first : getVblanks d (i :: is) = getVblanks d is := crtcLoop_skipped active is
        rw [first, ih]
        by_cases same : j = i
        · subst same
          simp [active]
        · simp [same]

/-- The CRTCs a loop finds picked. -/
def pickedCrtcs (picked : PmDevice → Nat → Bool) (d : PmDevice) : List Nat :=
  if d.irqInstalled then (List.range d.numCrtc).filter (picked d) else []

theorem nodup_pickedCrtcs (picked : PmDevice → Nat → Bool) (d : PmDevice) :
    (pickedCrtcs picked d).Nodup := by
  by_cases installed : d.irqInstalled = true
  · rw [pickedCrtcs, if_pos installed]
    exact List.nodup_range.filter _
  · rw [pickedCrtcs, if_neg installed]
    exact List.nodup_nil

theorem forCrtcs_get_trace (d : PmDevice) :
    (forCrtcs getVblanks d).2 = (pickedCrtcs PmDevice.isActive d).map .vblankGet := by
  by_cases installed : d.irqInstalled = true
  · rw [forCrtcs, pickedCrtcs, if_pos installed, if_pos installed]
    exact crtcLoop_trace (fun d i j _ => request_isActive d i j) d List.nodup_range
  · rw [forCrtcs, pickedCrtcs, if_neg installed, if_neg installed, List.map_nil]

theorem forCrtcs_put_trace (d : PmDevice) :
    (forCrtcs putVblanks d).2 = (pickedCrtcs PmDevice.isRequested d).map .vblankPut := by
  by_cases installed : d.irqInstalled = true
  · rw [forCrtcs, pickedCrtcs, if_pos installed, if_pos installed]
    exact crtcLoop_trace (fun d _ _ apart => dismiss_isRequested d apart) d List.nodup_range
  · rw [forCrtcs, pickedCrtcs, if_neg installed, if_neg installed, List.map_nil]

/-- The device after the first loop. -/
def gotten (d : PmDevice) : PmDevice := (forCrtcs getVblanks d).1

theorem gotten_eq (d : PmDevice) : gotten d = { d with reqVblank := (gotten d).reqVblank } := by
  by_cases installed : d.irqInstalled = true
  · rw [gotten, forCrtcs, if_pos installed]
    exact crtcLoop_device (fun _ _ => rfl) d _
  · rw [gotten, forCrtcs, if_neg installed]

theorem forCrtcs_put_device (d : PmDevice) :
    (forCrtcs putVblanks d).1 = { d with reqVblank := (forCrtcs putVblanks d).1.reqVblank } := by
  by_cases installed : d.irqInstalled = true
  · rw [forCrtcs, if_pos installed]
    exact crtcLoop_device (fun _ _ => rfl) d _
  · rw [forCrtcs, if_neg installed]

/-- If none were requested before, then the second loop finds those that the first one got. -/
theorem requested_gotten (empty : d.reqVblank = 0) :
    pickedCrtcs PmDevice.isRequested (gotten d) = pickedCrtcs PmDevice.isActive d := by
  have sameIrq : (gotten d).irqInstalled = d.irqInstalled := by rw [gotten_eq]
  have sameCrtcs : (gotten d).numCrtc = d.numCrtc := by rw [gotten_eq]
  by_cases installed : d.irqInstalled = true
  · rw [pickedCrtcs, pickedCrtcs, sameIrq, sameCrtcs, if_pos installed, if_pos installed]
    refine List.filter_congr fun i member => ?_
    have none : d.isRequested i = false := by simp [PmDevice.isRequested, empty]
    rw [gotten, forCrtcs, if_pos installed, getVblanks_isRequested, none,
      decide_eq_true member, Bool.false_or, Bool.true_and]
  · rw [pickedCrtcs, pickedCrtcs, sameIrq, if_neg installed, if_neg installed]

end Loops

section Course

variable {o : PmOutcomes} {new : Clocks} {d s : PmDevice}

/-! ## The setters -/

/-- The clocks and voltages after all the setters. -/
def reached (new : Clocks) (d : PmDevice) : Clocks where
  sclk := new.sclk
  mclk := if d.hasSetMemoryClock then new.mclk else d.current.mclk
  vddc := new.vddc
  vddci := new.vddci

def voltageCalls (new : Clocks) : List PmEvent := [.setVddc new.vddc, .setVddci new.vddci]

def engineCalls (sclk current : BitVec 32) : List PmEvent :=
  if sclk ≠ current then [.debugCheckInVbl false, .setEngineClock sclk, .debugCheckInVbl true]
  else []

def memoryCalls (settable : Bool) (mclk current : BitVec 32) : List PmEvent :=
  if settable ∧ mclk ≠ current then
    [.debugCheckInVbl false, .setMemoryClock mclk, .debugCheckInVbl true]
  else []

def clockCalls (new : Clocks) (d : PmDevice) : List PmEvent :=
  engineCalls new.sclk d.current.sclk ++
    memoryCalls d.hasSetMemoryClock new.mclk d.current.mclk

def setterCalls (new : Clocks) (d : PmDevice) : List PmEvent :=
  if new.sclk < d.current.sclk then clockCalls new d ++ voltageCalls new
  else voltageCalls new ++ clockCalls new d

theorem setEngineClock_eq (sclk : BitVec 32) (s : PmDevice) :
    setEngineClock sclk s =
      (s.running { s.current with sclk := sclk }, engineCalls sclk s.current.sclk) := by
  by_cases same : sclk = s.current.sclk
  · simp [setEngineClock, engineCalls, PmDevice.running, same]
  · simp [setEngineClock, engineCalls, same]

theorem setMemoryClock_eq (mclk : BitVec 32) (s : PmDevice) :
    setMemoryClock mclk s =
      (s.running { s.current with mclk := if s.hasSetMemoryClock then mclk else s.current.mclk },
        memoryCalls s.hasSetMemoryClock mclk s.current.mclk) := by
  by_cases same : mclk = s.current.mclk
  · simp [setMemoryClock, memoryCalls, PmDevice.running, same]
  · cases settable : s.hasSetMemoryClock with
    | false =>
        rw [setMemoryClock, memoryCalls, settable, if_neg (by simp), if_neg (by simp)]
        rfl
    | true => simp [setMemoryClock, memoryCalls, settable, same]

theorem setAll_eq (new : Clocks) (d : PmDevice) :
    setAll new d = (d.running (reached new d), setterCalls new d) := by
  by_cases after : new.sclk < d.current.sclk
  · rw [setAll, if_pos after, setterCalls, if_pos after]
    simp only [andThen, setVoltages, setEngineClock_eq, setMemoryClock_eq, reached]
    rfl
  · rw [setAll, if_neg after, setterCalls, if_neg after]
    simp only [andThen, setVoltages, setEngineClock_eq, setMemoryClock_eq, reached]
    rfl

/-- What the part between `radeon_pm_prepare` and `radeon_pm_finish` is made of. -/
def PmEvent.isSetting : PmEvent → Bool
  | .setVddc _ | .setVddci _ | .debugCheckInVbl _ | .setEngineClock _ | .setMemoryClock _ => true
  | _ => false

theorem setterCalls_isSetting (new : Clocks) (d : PmDevice) :
    ∀ e ∈ setterCalls new d, e.isSetting = true := by
  intro e member
  have parts : e ∈ voltageCalls new ∨ e ∈ engineCalls new.sclk d.current.sclk ∨
      e ∈ memoryCalls d.hasSetMemoryClock new.mclk d.current.mclk := by
    unfold setterCalls clockCalls at member
    grind
  rcases parts with voltage | engine | memory
  · simp only [voltageCalls, List.mem_cons, List.not_mem_nil, or_false] at voltage
    rcases voltage with rfl | rfl
    · rfl
    · rfl
  · unfold engineCalls at engine
    split at engine
    · simp only [List.mem_cons, List.not_mem_nil, or_false] at engine
      rcases engine with rfl | rfl | rfl
      all_goals rfl
    · cases engine
  · unfold memoryCalls at memory
    split at memory
    · simp only [List.mem_cons, List.not_mem_nil, or_false] at memory
      rcases memory with rfl | rfl | rfl
      all_goals rfl
    · cases memory

/-! ## The function -/

def Valid (new : Clocks) : Prop :=
  invalidVoltage new.vddc = false ∧ invalidVoltage new.vddci = false

/-- DYNPM, and not in a vertical blank when that has been waited for. -/
def MissesVblank (o : PmOutcomes) (d : PmDevice) : Prop := d.pmMethod = .dynpm ∧ ¬ o.inVbl

/-- From the locks to the first loop. -/
def preparation (o : PmOutcomes) (d : PmDevice) : List PmEvent :=
  (drainRings o 0 d.ringReady).1 ++ [.unmapVramBos]

def gets (d : PmDevice) : List PmEvent := (pickedCrtcs PmDevice.isActive d).map .vblankGet

def puts (d : PmDevice) : List PmEvent :=
  (pickedCrtcs PmDevice.isRequested (gotten d)).map .vblankPut

/-- From the second loop to the locks. -/
def display (d : PmDevice) : List PmEvent :=
  .updateBandwidthInfo :: if d.activeCrtcCount ≠ 0 then [.bandwidthUpdate] else []

/-! What holds of the events that can stand in a part holds of all in it. -/

section

variable {p : PmEvent → Prop}

theorem forall_preparation (wait : ∀ k, p (.waitEmpty k)) (unmap : p .unmapVramBos)
    (d : PmDevice) : ∀ e ∈ preparation o d, p e :=
  List.forall_mem_append.mpr
    ⟨forall_drainRings wait d.ringReady 0, List.forall_mem_singleton.mpr unmap⟩

theorem forall_gets (get : ∀ i, p (.vblankGet i)) (d : PmDevice) : ∀ e ∈ gets d, p e :=
  List.forall_mem_map.mpr fun i _ => get i

theorem forall_puts (put : ∀ i, p (.vblankPut i)) (d : PmDevice) : ∀ e ∈ puts d, p e :=
  List.forall_mem_map.mpr fun i _ => put i

theorem forall_display (update : p .updateBandwidthInfo) (bandwidth : p .bandwidthUpdate)
    (d : PmDevice) : ∀ e ∈ display d, p e := by
  by_cases dark : d.activeCrtcCount = 0
  · simp [display, dark, update]
  · simp [display, dark, update, bandwidth]

end

/-- The device after both loops, with these clocks set between them. -/
def finished (d : PmDevice) (current : Clocks) : PmDevice :=
  (forCrtcs putVblanks ((gotten d).running current)).1

/-- The ways the function can go. -/
inductive Course (o : PmOutcomes) (new : Clocks) (d : PmDevice) : PmCall → Prop
  | invalid : ¬ Valid new → Course o new d (d, [])
  | stuck : Valid new → ¬ Drains o d.ringReady →
      Course o new d (d, lockAll ++ ((drainRings o 0 d.ringReady).1 ++ unlockAll))
  | missed : Valid new → Drains o d.ringReady → o.guiIdle = true → MissesVblank o d →
      Course o new d (gotten d, lockAll ++ (preparation o d ++ (gets d ++ [.syncWithVblank])))
  | busy : Valid new → Drains o d.ringReady → o.guiIdle = false →
      Course o new d (finished d d.current,
        lockAll ++ ((preparation o d ++ (gets d ++ (puts d ++ display d))) ++ unlockAll))
  | done : Valid new → Drains o d.ringReady → o.guiIdle = true → ¬ MissesVblank o d →
      Course o new d (finished d (reached new d),
        lockAll ++ ((preparation o d ++ (gets d ++ (.syncWithVblank :: .prepare ::
          (setterCalls new d ++ .finish :: (puts d ++ display d))))) ++ unlockAll))

theorem leave_eq (d : PmDevice) (current : Clocks) :
    leave ((gotten d).running current) =
      (finished d current, puts d ++ (display d ++ unlockAll)) := by
  have count : (forCrtcs putVblanks ((gotten d).running current)).1.activeCrtcCount =
      d.activeCrtcCount := by
    rw [forCrtcs_put_device, PmDevice.running, gotten_eq]
  rw [leave, count, forCrtcs_put_trace]
  simp only [finished, puts, display, List.cons_append]
  rfl

theorem course (o : PmOutcomes) (new : Clocks) (d : PmDevice) :
    Course o new d (setClocksVoltagesRaw o new d) := by
  by_cases valid : Valid new
  swap
  · have invalid : (invalidVoltage new.vddc || invalidVoltage new.vddci) = true := by
      by_contra neither
      rw [Bool.not_eq_true, Bool.or_eq_false_iff] at neither
      exact valid neither
    rw [setClocksVoltagesRaw, if_pos invalid]
    exact .invalid valid
  have started : ¬ (invalidVoltage new.vddc || invalidVoltage new.vddci) = true := by
    rw [valid.1, valid.2]
    simp
  rw [setClocksVoltagesRaw, if_neg started]
  by_cases drains : Drains o d.ringReady
  swap
  · rw [if_neg (mt (drainRings_iff d.ringReady).mp drains)]
    exact .stuck valid drains
  rw [if_pos ((drainRings_iff d.ringReady).mpr drains)]
  have method : (gotten d).pmMethod = d.pmMethod := by rw [gotten_eq]
  have device : gotten d = (gotten d).running d.current := by
    rw [PmDevice.running, gotten_eq]
  have set : setAll new (gotten d) =
      ((gotten d).running (reached new d), setterCalls new d) := by
    rw [setAll_eq, gotten_eq]
    rfl
  have got : forCrtcs getVblanks d = (gotten d, gets d) := by
    rw [gets, ← forCrtcs_get_trace]
    rfl
  rw [got]
  cases idle : o.guiIdle with
  | false =>
      have left := leave_eq d d.current
      rw [← device] at left
      have whole := Course.busy valid drains idle
      simpa [preparation, left] using whole
  | true =>
      by_cases misses : MissesVblank o d
      · have whole := Course.missed valid drains idle misses
        have bare : (gotten d).pmMethod = .dynpm ∧ ¬ o.inVbl := by rwa [method]
        simpa [preparation, bare] using whole
      · have whole := Course.done valid drains idle misses
        have waited : ¬ ((gotten d).pmMethod = .dynpm ∧ ¬ o.inVbl) := by rwa [method]
        rw [if_pos rfl, if_neg waited, set]
        simpa [preparation, leave_eq] using whole

/-! ## Where the setters are -/

/-- The function gets to its setters. -/
def Sets (o : PmOutcomes) (new : Clocks) (d : PmDevice) : Prop :=
  Valid new ∧ Drains o d.ringReady ∧ o.guiIdle = true ∧ ¬ MissesVblank o d

/-- No setter is called. -/
def Still (t : List PmEvent) : Prop := ∀ e ∈ t, e.isSetting = false

instance : DecidablePred Still := fun t => inferInstanceAs (Decidable (∀ e ∈ t, e.isSetting = false))

theorem still_append {t u : List PmEvent} : Still (t ++ u) ↔ Still t ∧ Still u :=
  List.forall_mem_append

theorem still_cons {e : PmEvent} {t : List PmEvent} :
    Still (e :: t) ↔ e.isSetting = false ∧ Still t := List.forall_mem_cons

theorem still_nil : Still [] := List.forall_mem_nil _

theorem still_lockAll : Still lockAll := by simp [Still, lockAll, PmEvent.isSetting]

theorem still_unlockAll : Still unlockAll := by simp [Still, unlockAll, PmEvent.isSetting]

theorem still_drainRings (o : PmOutcomes) (rings : List Bool) : Still (drainRings o 0 rings).1 :=
  forall_drainRings (fun _ => rfl) rings 0

theorem still_preparation (o : PmOutcomes) (d : PmDevice) : Still (preparation o d) :=
  forall_preparation (p := fun e => e.isSetting = false) (fun _ => rfl) rfl d

theorem still_gets (d : PmDevice) : Still (gets d) := forall_gets (fun _ => rfl) d

theorem still_puts (d : PmDevice) : Still (puts d) := forall_puts (fun _ => rfl) d

theorem still_display (d : PmDevice) : Still (display d) :=
  forall_display (p := fun e => e.isSetting = false) rfl rfl d

theorem finished_current (d : PmDevice) (current : Clocks) :
    (finished d current).current = current := by
  rw [finished, forCrtcs_put_device]
  rfl

theorem gotten_current (d : PmDevice) : (gotten d).current = d.current := by rw [gotten_eq]

/-- All setters are called, between two parts that call none. -/
theorem calls_of_sets (sets : Sets o new d) :
    (setClocksVoltagesRaw o new d).1.current = reached new d ∧
      ∃ before after, Still before ∧ Still after ∧
        (setClocksVoltagesRaw o new d).2 = before ++ (setterCalls new d ++ after) := by
  have way := course o new d
  generalize setClocksVoltagesRaw o new d = call at way ⊢
  cases way with
  | invalid invalid => exact absurd sets.1 invalid
  | stuck valid stuck => exact absurd sets.2.1 stuck
  | missed valid drains idle misses => exact absurd misses sets.2.2.2
  | busy valid drains busy => exact absurd (busy.symm.trans sets.2.2.1) (by simp)
  | done valid drains idle waited =>
      refine ⟨finished_current d _,
        lockAll ++ (preparation o d ++ (gets d ++ [.syncWithVblank, .prepare])),
        .finish :: (puts d ++ (display d ++ unlockAll)), ?_, ?_, by simp⟩
      · simp only [still_append, still_cons]
        exact ⟨still_lockAll, still_preparation o d, still_gets d, rfl, rfl, still_nil⟩
      · simp only [still_append, still_cons]
        exact ⟨rfl, still_puts d, still_display d, still_unlockAll⟩

theorem calls_of_not_sets (unset : ¬ Sets o new d) :
    (setClocksVoltagesRaw o new d).1.current = d.current ∧
      Still (setClocksVoltagesRaw o new d).2 := by
  have way := course o new d
  generalize setClocksVoltagesRaw o new d = call at way ⊢
  cases way with
  | invalid => exact ⟨rfl, still_nil⟩
  | stuck =>
      refine ⟨rfl, ?_⟩
      simp only [still_append]
      exact ⟨still_lockAll, still_drainRings o d.ringReady, still_unlockAll⟩
  | missed =>
      simp only [still_append, still_cons]
      exact ⟨gotten_current d, still_lockAll, still_preparation o d, still_gets d, rfl, still_nil⟩
  | busy =>
      simp only [still_append]
      exact ⟨finished_current d d.current, still_lockAll, ⟨still_preparation o d, still_gets d,
        still_puts d, still_display d⟩, still_unlockAll⟩
  | done valid drains idle waited => exact absurd ⟨valid, drains, idle, waited⟩ unset

end Course

/-! ## A card -/

/-- One ring, and two screens that are on. -/
def card (method : PmMethod) (current : Clocks) : PmDevice where
  current := current
  pmMethod := method
  ringReady := [true, false]
  irqInstalled := true
  numCrtc := 2
  activeCrtcs := 3
  activeCrtcCount := 2
  reqVblank := 0
  hasSetMemoryClock := true

/-- Every call succeeds. -/
def calm : PmOutcomes where
  fenceWait _ := 0
  guiIdle := true
  inVbl := true

end RadeonsiCompute
