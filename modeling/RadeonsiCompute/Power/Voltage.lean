import RadeonsiCompute.Lib.Supply
import RadeonsiCompute.Power.Course

/-!
# Voltages on the way

What the setters make of the clocks, call by call. The engine clock decides
whether the voltages are set before or after both clocks, so the engine domain is
always supplied, and the memory domain if its clock goes the same way:
`setClocksVoltagesRaw_powered_iff`.
-/

namespace RadeonsiCompute

open Lib

/-- A setter takes effect at once. -/
def Clocks.after (hw : Clocks) : PmEvent → Clocks
  | .setVddc v => { hw with vddc := v }
  | .setVddci v => { hw with vddci := v }
  | .setEngineClock v => { hw with sclk := v }
  | .setMemoryClock v => { hw with mclk := v }
  | _ => hw

def Clocks.engine (c : Clocks) : Operating Nat Nat := ⟨c.sclk.toNat, c.vddc.toNat⟩

def Clocks.memory (c : Clocks) : Operating Nat Nat := ⟨c.mclk.toNat, c.vddci.toNat⟩

/-- Neither domain lags. -/
def Powered (old new hw : Clocks) : Prop :=
  ¬ Operating.Lags old.engine new.engine hw.engine ∧
    ¬ Operating.Lags old.memory new.memory hw.memory

instance (old new : Clocks) : DecidablePred (Powered old new) := fun _ =>
  inferInstanceAs (Decidable (_ ∧ _))

section

variable {o : PmOutcomes} {new hw : Clocks} {d : PmDevice} {p : Clocks → Prop} {t : List PmEvent}

theorem after_of_still (still : Still t) : ∀ e ∈ t, ∀ hw : Clocks, hw.after e = hw := by
  intro e member hw
  have other := still e member
  cases e with
  | setVddc | setVddci | debugCheckInVbl | setEngineClock | setMemoryClock => cases other
  | _ => rfl

/-! ## The setters -/

theorem always_voltageCalls :
    Always Clocks.after p hw (voltageCalls new) ↔
      p hw ∧ p { hw with vddc := new.vddc } ∧
        p { hw with vddc := new.vddc, vddci := new.vddci } := Iff.rfl

theorem foldl_voltageCalls :
    (voltageCalls new).foldl Clocks.after hw = { hw with vddc := new.vddc, vddci := new.vddci } :=
  rfl

/-- Where the clock is as it should be, nothing is called and nothing to change. -/
theorem always_engineCalls (hw : Clocks) (sclk : BitVec 32) :
    Always Clocks.after p hw (engineCalls sclk hw.sclk) ↔ p hw ∧ p { hw with sclk := sclk } := by
  by_cases same : sclk = hw.sclk
  · rw [engineCalls, if_neg (not_not_intro same), same]
    exact (and_self_iff).symm
  · rw [engineCalls, if_pos same]
    simp only [Always, Clocks.after]
    tauto

theorem foldl_engineCalls (hw : Clocks) (sclk : BitVec 32) :
    (engineCalls sclk hw.sclk).foldl Clocks.after hw = { hw with sclk := sclk } := by
  by_cases same : sclk = hw.sclk
  · rw [engineCalls, if_neg (not_not_intro same), same]
    rfl
  · rw [engineCalls, if_pos same]
    rfl

theorem always_memoryCalls (hw : Clocks) (mclk : BitVec 32) :
    Always Clocks.after p hw (memoryCalls true mclk hw.mclk) ↔
      p hw ∧ p { hw with mclk := mclk } := by
  by_cases same : mclk = hw.mclk
  · rw [memoryCalls, if_neg fun both => both.2 same, same]
    exact (and_self_iff).symm
  · rw [memoryCalls, if_pos ⟨rfl, same⟩]
    simp only [Always, Clocks.after]
    tauto

theorem foldl_memoryCalls (hw : Clocks) (settable : Bool) (mclk : BitVec 32) :
    (memoryCalls settable mclk hw.mclk).foldl Clocks.after hw =
      { hw with mclk := if settable then mclk else hw.mclk } := by
  by_cases same : mclk = hw.mclk
  · rw [memoryCalls, if_neg fun both => both.2 same, same, ite_self]
    rfl
  · cases settable with
    | false => rfl
    | true =>
        rw [memoryCalls, if_pos ⟨rfl, same⟩]
        rfl

theorem foldl_clockCalls (new hw : Clocks) (sclk : hw.sclk = d.current.sclk)
    (mclk : hw.mclk = d.current.mclk) :
    (clockCalls new d).foldl Clocks.after hw = { hw with
      sclk := new.sclk, mclk := if d.hasSetMemoryClock then new.mclk else d.current.mclk } := by
  rw [clockCalls, ← sclk, ← mclk, List.foldl_append, foldl_engineCalls]
  exact foldl_memoryCalls { hw with sclk := new.sclk } d.hasSetMemoryClock new.mclk

theorem always_clockCalls (new hw : Clocks) (settable : d.hasSetMemoryClock = true)
    (sclk : hw.sclk = d.current.sclk) (mclk : hw.mclk = d.current.mclk) :
    Always Clocks.after p hw (clockCalls new d) ↔ p hw ∧ p { hw with sclk := new.sclk } ∧
      p { hw with sclk := new.sclk, mclk := new.mclk } := by
  have memory := always_memoryCalls (p := p) { hw with sclk := new.sclk } new.mclk
  have engine := always_engineCalls (p := p) hw new.sclk
  rw [clockCalls, settable, ← sclk, ← mclk, always_append, foldl_engineCalls, engine]
  refine (and_congr_right fun _ => memory).trans ?_
  tauto

theorem foldl_setterCalls (new : Clocks) (d : PmDevice) :
    (setterCalls new d).foldl Clocks.after d.current = reached new d := by
  by_cases after : new.sclk < d.current.sclk
  · rw [setterCalls, if_pos after, List.foldl_append, foldl_clockCalls new _ rfl rfl,
      foldl_voltageCalls]
    rfl
  · rw [setterCalls, if_neg after, List.foldl_append, foldl_voltageCalls]
    exact foldl_clockCalls new _ rfl rfl

/-- The clocks first. -/
theorem always_lowering (settable : d.hasSetMemoryClock = true)
    (lowers : new.sclk < d.current.sclk) :
    Always Clocks.after p d.current (setterCalls new d) ↔
      p d.current ∧ p { d.current with sclk := new.sclk } ∧
        p { d.current with sclk := new.sclk, mclk := new.mclk } ∧
        p { new with vddci := d.current.vddci } ∧ p new := by
  rw [setterCalls, if_pos lowers, always_append, always_clockCalls new _ settable rfl rfl,
    foldl_clockCalls new _ rfl rfl, settable, always_voltageCalls]
  simp only [if_true]
  tauto

/-- The voltages first. -/
theorem always_raising (settable : d.hasSetMemoryClock = true)
    (raises : ¬ new.sclk < d.current.sclk) :
    Always Clocks.after p d.current (setterCalls new d) ↔
      p d.current ∧ p { d.current with vddc := new.vddc } ∧
        p { d.current with vddc := new.vddc, vddci := new.vddci } ∧
        p { new with mclk := d.current.mclk } ∧ p new := by
  have clocks := always_clockCalls (p := p) new
    { d.current with vddc := new.vddc, vddci := new.vddci } settable rfl rfl
  rw [setterCalls, if_neg raises, always_append, always_voltageCalls, foldl_voltageCalls, clocks]
  tauto

/-- The function leaves in the driver's record what it has set. -/
theorem foldl_setClocksVoltagesRaw (o : PmOutcomes) (new : Clocks) (d : PmDevice) :
    (setClocksVoltagesRaw o new d).2.foldl Clocks.after d.current =
      (setClocksVoltagesRaw o new d).1.current := by
  by_cases sets : Sets o new d
  · obtain ⟨current, before, after, stillBefore, stillAfter, trace⟩ := calls_of_sets sets
    rw [current, trace, List.foldl_append, foldl_of_still (after_of_still stillBefore),
      List.foldl_append, foldl_setterCalls, foldl_of_still (after_of_still stillAfter)]
  · obtain ⟨current, still⟩ := calls_of_not_sets sets
    rw [current, foldl_of_still (after_of_still still)]

/-! ## The domains -/

variable {old : Clocks}

theorem powered_old (engine : Operating.Sensible old.engine new.engine)
    (memory : Operating.Sensible old.memory new.memory) : Powered old new old :=
  ⟨Operating.not_lags_old engine, Operating.not_lags_old memory⟩

theorem powered_new (engine : Operating.Sensible old.engine new.engine)
    (memory : Operating.Sensible old.memory new.memory) : Powered old new new :=
  ⟨Operating.not_lags_new engine, Operating.not_lags_new memory⟩

/-- The engine domain is halfway first, then the memory domain, then the engine domain is done.
All depends on the memory domain halfway. -/
theorem powered_between_iff {e m : Operating Nat Nat}
    (engine : Operating.Sensible old.engine new.engine)
    (memory : Operating.Sensible old.memory new.memory)
    (engineFirst : ¬ Operating.Lags old.engine new.engine e) :
    (Powered old new old ∧
      (¬ Operating.Lags old.engine new.engine e ∧
        ¬ Operating.Lags old.memory new.memory old.memory) ∧
      (¬ Operating.Lags old.engine new.engine e ∧ ¬ Operating.Lags old.memory new.memory m) ∧
      (¬ Operating.Lags old.engine new.engine new.engine ∧
        ¬ Operating.Lags old.memory new.memory m) ∧
      Powered old new new) ↔ ¬ Operating.Lags old.memory new.memory m := by
  constructor
  · exact fun points => points.2.2.1.2
  · intro fine
    exact ⟨powered_old engine memory, ⟨engineFirst, Operating.not_lags_old memory⟩,
      ⟨engineFirst, fine⟩, ⟨Operating.not_lags_new engine, fine⟩, powered_new engine memory⟩

theorem memory_clock_lt (a b : Clocks) : a.memory.clock < b.memory.clock ↔ a.mclk < b.mclk :=
  Iff.rfl

theorem memory_voltage_ne (a b : Clocks) :
    a.memory.voltage ≠ b.memory.voltage ↔ a.vddci ≠ b.vddci := not_congr BitVec.toNat_inj

/-- When the clocks go first, the memory clock must not rise. -/
theorem powered_lowering (engine : Operating.Sensible d.current.engine new.engine)
    (memory : Operating.Sensible d.current.memory new.memory)
    (settable : d.hasSetMemoryClock = true) (lowers : new.sclk < d.current.sclk) :
    Always Clocks.after (Powered d.current new) d.current (setterCalls new d) ↔
      ¬ (d.current.mclk < new.mclk ∧ d.current.vddci ≠ new.vddci) := by
  have lag := Operating.lags_clock_first memory
  rw [memory_clock_lt, memory_voltage_ne] at lag
  have engineFirst : ¬ Operating.Lags d.current.engine new.engine
      ⟨new.engine.clock, d.current.engine.voltage⟩ := by
    rw [Operating.lags_clock_first engine]
    exact fun both => lt_asymm (a := new.sclk.toNat) lowers both.1
  rw [always_lowering settable lowers, ← lag]
  exact powered_between_iff engine memory engineFirst

/-- When the voltages go first, the memory clock must not fall. -/
theorem powered_raising (engine : Operating.Sensible d.current.engine new.engine)
    (memory : Operating.Sensible d.current.memory new.memory)
    (settable : d.hasSetMemoryClock = true) (raises : ¬ new.sclk < d.current.sclk) :
    Always Clocks.after (Powered d.current new) d.current (setterCalls new d) ↔
      ¬ (new.mclk < d.current.mclk ∧ d.current.vddci ≠ new.vddci) := by
  have lag := Operating.lags_voltage_first memory
  rw [memory_clock_lt, memory_voltage_ne] at lag
  have engineFirst : ¬ Operating.Lags d.current.engine new.engine
      ⟨d.current.engine.clock, new.engine.voltage⟩ := by
    rw [Operating.lags_voltage_first engine]
    exact fun both => raises both.1
  rw [always_raising settable raises, ← lag]
  exact powered_between_iff engine memory engineFirst

theorem setClocksVoltagesRaw_powered_iff (o : PmOutcomes) (new : Clocks) (d : PmDevice)
    (settable : d.hasSetMemoryClock = true)
    (engine : Operating.Sensible d.current.engine new.engine)
    (memory : Operating.Sensible d.current.memory new.memory) :
    Always Clocks.after (Powered d.current new) d.current (setClocksVoltagesRaw o new d).2 ↔
      ¬ Sets o new d ∨ new.mclk = d.current.mclk ∨ new.vddci = d.current.vddci ∨
        (new.mclk < d.current.mclk ↔ new.sclk < d.current.sclk) := by
  by_cases sets : Sets o new d
  swap
  · obtain ⟨-, still⟩ := calls_of_not_sets sets
    rw [always_of_still (after_of_still still)]
    exact iff_of_true (powered_old engine memory) (.inl sets)
  obtain ⟨-, before, after, stillBefore, stillAfter, trace⟩ := calls_of_sets sets
  rw [trace, always_still_append (after_of_still stillBefore),
    always_append_still (after_of_still stillAfter)]
  by_cases lowers : new.sclk < d.current.sclk
  · rw [powered_lowering engine memory settable lowers]
    grind
  · rw [powered_raising engine memory settable lowers]
    grind

end

/-- Both clocks rise, and neither domain lags. -/
theorem setClocksVoltagesRaw_powered_iff_rising :
    Always Clocks.after (Powered ⟨80000, 100000, 1000, 900⟩ ⟨90000, 120000, 1100, 950⟩)
      ⟨80000, 100000, 1000, 900⟩
      (setClocksVoltagesRaw calm ⟨90000, 120000, 1100, 950⟩
        (card .profile ⟨80000, 100000, 1000, 900⟩)).2 :=
  (setClocksVoltagesRaw_powered_iff calm ⟨90000, 120000, 1100, 950⟩
    (card .profile ⟨80000, 100000, 1000, 900⟩) rfl ⟨by decide, by decide⟩
    ⟨by decide, by decide⟩).mpr (.inr (.inr (.inr (by decide))))

/-- The engine clock rises and the memory clock falls: its voltage is lowered before. -/
theorem setClocksVoltagesRaw_undervolts :
    Operating.Sensible (Clocks.engine ⟨80000, 100000, 1000, 900⟩)
        (Clocks.engine ⟨90000, 50000, 1100, 850⟩) ∧
      Operating.Sensible (Clocks.memory ⟨80000, 100000, 1000, 900⟩)
        (Clocks.memory ⟨90000, 50000, 1100, 850⟩) ∧
      ¬ Always Clocks.after (Powered ⟨80000, 100000, 1000, 900⟩ ⟨90000, 50000, 1100, 850⟩)
        ⟨80000, 100000, 1000, 900⟩
        (setClocksVoltagesRaw calm ⟨90000, 50000, 1100, 850⟩
          (card .profile ⟨80000, 100000, 1000, 900⟩)).2 :=
  ⟨⟨by decide, by decide⟩, ⟨by decide, by decide⟩, by decide⟩

end RadeonsiCompute
