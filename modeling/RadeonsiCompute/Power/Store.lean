import RadeonsiCompute.Power.Locks
import RadeonsiCompute.Power.Voltage

/-!
# The `gpu_clocks` attribute

A line names up to four values; the others are taken from the driver's record,
the clocks cut to whole MHz. `setPmClocks_exact_iff` says when what is written is
what is set: that also asks for the setters to be reached, for they are not when
a ring does not drain or the GUI is busy, and then the write still succeeds.
-/

namespace RadeonsiCompute

open Lib

/-- The value named if there is one, else the old one. -/
def wanted (scale : Nat) (field : Option Nat) (old : Nat) : Nat := field.elim old (scale * ·)

/-- What is named is in effect, the rest is as it was, and the voltages are in their ranges. -/
structure Applied (line : ClockLine) (old hw : Clocks) : Prop where
  sclk : hw.sclk.toNat = wanted 100 line.fields[0]? old.sclk.toNat
  mclk : hw.mclk.toNat = wanted 100 line.fields[1]? old.mclk.toNat
  vddc : hw.vddc.toNat = wanted 1 line.fields[2]? old.vddc.toNat
  vddci : hw.vddci.toNat = wanted 1 line.fields[3]? old.vddci.toNat
  vddc_range : 100 ≤ hw.vddc.toNat ∧ hw.vddc.toNat ≤ 1410
  vddci_range : 100 ≤ hw.vddci.toNat ∧ hw.vddci.toNat ≤ 950

/-- The write is refused without a setter being called, or what the line says is in effect. -/
def Exactly (count : Nat) (line : ClockLine) (old : Clocks) : Except Fault StoreResult → Prop
  | .ok r => (r.ret = -einval ∧ Still r.trace) ∨
      (r.ret = count ∧ Applied line old (r.trace.foldl Clocks.after old))
  | .error _ => False

instance (line : ClockLine) (old hw : Clocks) : Decidable (Applied line old hw) :=
  decidable_of_iff (hw.sclk.toNat = wanted 100 line.fields[0]? old.sclk.toNat ∧
      hw.mclk.toNat = wanted 100 line.fields[1]? old.mclk.toNat ∧
      hw.vddc.toNat = wanted 1 line.fields[2]? old.vddc.toNat ∧
      hw.vddci.toNat = wanted 1 line.fields[3]? old.vddci.toNat ∧
      (100 ≤ hw.vddc.toNat ∧ hw.vddc.toNat ≤ 1410) ∧
      (100 ≤ hw.vddci.toNat ∧ hw.vddci.toNat ≤ 950))
    ⟨fun ⟨sclk, mclk, vddc, vddci, range, range'⟩ => ⟨sclk, mclk, vddc, vddci, range, range'⟩,
      fun h => ⟨h.sclk, h.mclk, h.vddc, h.vddci, h.vddc_range, h.vddci_range⟩⟩

instance (count : Nat) (line : ClockLine) (old : Clocks) : DecidablePred (Exactly count line old)
  | .ok r => inferInstanceAs (Decidable ((r.ret = -einval ∧ Still r.trace) ∨
      (r.ret = count ∧ Applied line old (r.trace.foldl Clocks.after old))))
  | .error _ => inferInstanceAs (Decidable False)

/-! ## When it is -/

/-- A voltage as the checks see it. -/
def storedVoltage (field : Option Nat) (old : Nat) : Nat := field.elim old (· % 2 ^ 32)

/-- The line passes the checks. -/
structure Accepted (stack : List Byte) (line : ClockLine) (current : Clocks) : Prop where
  set : line.isSet stack = true
  vddc : 100 ≤ storedVoltage line.fields[2]? current.vddc.toNat ∧
    storedVoltage line.fields[2]? current.vddc.toNat ≤ 1410
  vddci : 100 ≤ storedVoltage line.fields[3]? current.vddci.toNat ∧
    storedVoltage line.fields[3]? current.vddci.toNat ≤ 950

/-- In units of 10 kHz a named clock fits a word; one that is not named is in whole MHz. -/
def ClockFits (field : Option Nat) (old : Nat) : Prop :=
  field.elim (old % 100 = 0) fun n => 100 * n < 2 ^ 32

def VoltageFits (field : Option Nat) : Prop := ∀ n ∈ field, n < 2 ^ 32

/-- A value that is not going to be set. -/
def InEffect (scale : Nat) (field : Option Nat) (old : Nat) : Prop := ∀ n ∈ field, scale * n = old

/-- The setters land on what the line says. -/
structure Lands (line : ClockLine) (d : PmDevice) : Prop where
  sclk : ClockFits line.fields[0]? d.current.sclk.toNat
  mclk : if d.hasSetMemoryClock then ClockFits line.fields[1]? d.current.mclk.toNat
    else InEffect 100 line.fields[1]? d.current.mclk.toNat
  vddc : VoltageFits line.fields[2]?
  vddci : VoltageFits line.fields[3]?

/-- The line says what is in effect already. -/
structure Already (line : ClockLine) (current : Clocks) : Prop where
  sclk : InEffect 100 line.fields[0]? current.sclk.toNat
  mclk : InEffect 100 line.fields[1]? current.mclk.toNat
  vddc : InEffect 1 line.fields[2]? current.vddc.toNat
  vddci : InEffect 1 line.fields[3]? current.vddci.toNat

section

variable {o : PmOutcomes} {d : PmDevice} {stack : List Byte} {line : ClockLine} {current : Clocks}
  {field : Option Nat} {count : Nat}

/-! ## Values -/

theorem wanted_old_iff {scale old : Nat} :
    old = wanted scale field old ↔ InEffect scale field old := by
  cases field with
  | none => simp [wanted, InEffect]
  | some n => simp [wanted, InEffect, eq_comm]

/-- The product is taken in 32 bits. -/
theorem toNat_clock (field : Option Nat) (old : BitVec 32) :
    (field.elim (old / 100) (BitVec.ofNat 32) * 100).toNat =
      field.elim (old.toNat / 100 * 100) fun n => 100 * n % 2 ^ 32 := by
  cases field with
  | none =>
      show (old / 100 * 100).toNat = old.toNat / 100 * 100
      have bound := old.isLt
      simp
      omega
  | some n =>
      show (BitVec.ofNat 32 n * 100).toNat = 100 * n % 2 ^ 32
      simp [Nat.mul_comm]

theorem clock_exact_iff (field : Option Nat) (old : BitVec 32) :
    (field.elim (old / 100) (BitVec.ofNat 32) * 100).toNat = wanted 100 field old.toNat ↔
      ClockFits field old.toNat := by
  rw [toNat_clock]
  cases field with
  | none =>
      show old.toNat / 100 * 100 = old.toNat ↔ old.toNat % 100 = 0
      omega
  | some n =>
      show 100 * n % 2 ^ 32 = 100 * n ↔ 100 * n < 2 ^ 32
      exact Nat.mod_eq_iff_lt (by decide)

theorem toNat_voltage (field : Option Nat) (old : BitVec 16) :
    (field.elim (old.setWidth 32) (BitVec.ofNat 32)).toNat = storedVoltage field old.toNat := by
  cases field with
  | none =>
      have bound := old.isLt
      show (old.setWidth 32).toNat = old.toNat
      rw [BitVec.toNat_setWidth]
      omega
  | some n => rfl

/-- A voltage that passes the checks is not cut to 16 bits. -/
theorem toNat_voltage_setWidth {field : Option Nat} {old : BitVec 16}
    (small : storedVoltage field old.toNat < 2 ^ 16) :
    ((field.elim (old.setWidth 32) (BitVec.ofNat 32)).setWidth 16).toNat =
      storedVoltage field old.toNat := by
  rw [BitVec.toNat_setWidth, toNat_voltage, Nat.mod_eq_of_lt small]

theorem voltage_exact_iff {old : Nat} :
    storedVoltage field old = wanted 1 field old ↔ VoltageFits field := by
  cases field with
  | none => simp [storedVoltage, wanted, VoltageFits]
  | some n => simp [storedVoltage, wanted, VoltageFits]

theorem voltage_of_inEffect {old : BitVec 16} (set : InEffect 1 field old.toNat) :
    storedVoltage field old.toNat = old.toNat := by
  cases field with
  | none => rfl
  | some n =>
      have bound := old.isLt
      have same : 1 * n = old.toNat := set n rfl
      show n % 2 ^ 32 = old.toNat
      omega

/-! ## The checks -/

/-- The comparisons of the code say the same. -/
theorem accepted_iff : Accepted stack line current ↔
    line.isSet stack = true ∧ (line.settings current).tooLow = false ∧
      (line.settings current).tooHigh = false := by
  have vddc : (line.settings current).vddc.toNat =
      storedVoltage line.fields[2]? current.vddc.toNat := toNat_voltage _ _
  have vddci : (line.settings current).vddci.toNat =
      storedVoltage line.fields[3]? current.vddci.toNat := toNat_voltage _ _
  have low : (line.settings current).tooLow = false ↔
      100 ≤ storedVoltage line.fields[2]? current.vddc.toNat ∧
        100 ≤ storedVoltage line.fields[3]? current.vddci.toNat := by
    simp [ClockSettings.tooLow, BitVec.lt_def, vddc, vddci]
  have high : (line.settings current).tooHigh = false ↔
      storedVoltage line.fields[2]? current.vddc.toNat ≤ 1410 ∧
        storedVoltage line.fields[3]? current.vddci.toNat ≤ 950 := by
    simp [ClockSettings.tooHigh, BitVec.lt_def, vddc, vddci]
  rw [low, high]
  constructor
  · exact fun accepted => ⟨accepted.set, ⟨accepted.vddc.1, accepted.vddci.1⟩,
      accepted.vddc.2, accepted.vddci.2⟩
  · exact fun ⟨set, low, high⟩ => ⟨set, ⟨low.1, high.1⟩, low.2, high.2⟩

/-- The voltages that are passed on. -/
theorem Accepted.toNat_vddc (accepted : Accepted stack line current) :
    (line.settings current).clocks.vddc.toNat =
      storedVoltage line.fields[2]? current.vddc.toNat :=
  toNat_voltage_setWidth (Nat.lt_of_le_of_lt accepted.vddc.2 (by decide))

theorem Accepted.toNat_vddci (accepted : Accepted stack line current) :
    (line.settings current).clocks.vddci.toNat =
      storedVoltage line.fields[3]? current.vddci.toNat :=
  toNat_voltage_setWidth (Nat.lt_of_le_of_lt accepted.vddci.2 (by decide))

theorem invalidVoltage_of_small {v : BitVec 16} (small : v.toNat < 0xFF00) :
    invalidVoltage v = false := by
  rw [invalidVoltage, beq_eq_false_iff_ne]
  intro same
  have masked : v.toNat &&& 0xFF00 = 0xFF00 := congrArg BitVec.toNat same
  have bound : v.toNat &&& 0xFF00 ≤ v.toNat := Nat.and_le_left
  omega

theorem Accepted.valid (accepted : Accepted stack line current) :
    Valid (line.settings current).clocks := by
  have vddc := accepted.vddc
  have vddci := accepted.vddci
  refine ⟨invalidVoltage_of_small ?_, invalidVoltage_of_small ?_⟩
  · rw [accepted.toNat_vddc]
    omega
  · rw [accepted.toNat_vddci]
    omega

/-- Only the rings and the GUI can keep an accepted line from the setters. -/
theorem sets_iff (profile : d.pmMethod = .profile) (accepted : Accepted stack line d.current) :
    Sets o (line.settings d.current).clocks d ↔ Drains o d.ringReady ∧ o.guiIdle = true := by
  have waited : ¬ MissesVblank o d := by
    rintro ⟨dynpm, -⟩
    exact absurd (profile.symm.trans dynpm) (by simp)
  constructor
  · exact fun sets => ⟨sets.2.1, sets.2.2.1⟩
  · exact fun both => ⟨accepted.valid, both.1, both.2, waited⟩

/-! ## What is in effect afterwards -/

theorem applied_reached_iff (accepted : Accepted stack line d.current) :
    Applied line d.current (reached (line.settings d.current).clocks d) ↔ Lands line d := by
  have sclkExact := clock_exact_iff line.fields[0]? d.current.sclk
  have mclkExact : (reached (line.settings d.current).clocks d).mclk.toNat =
      wanted 100 line.fields[1]? d.current.mclk.toNat ↔
        if d.hasSetMemoryClock then ClockFits line.fields[1]? d.current.mclk.toNat
        else InEffect 100 line.fields[1]? d.current.mclk.toNat := by
    cases settable : d.hasSetMemoryClock with
    | false =>
        rw [reached, settable]
        exact wanted_old_iff
    | true =>
        rw [reached, settable]
        exact clock_exact_iff line.fields[1]? d.current.mclk
  have vddc : (reached (line.settings d.current).clocks d).vddc.toNat =
      storedVoltage line.fields[2]? d.current.vddc.toNat := accepted.toNat_vddc
  have vddci : (reached (line.settings d.current).clocks d).vddci.toNat =
      storedVoltage line.fields[3]? d.current.vddci.toNat := accepted.toNat_vddci
  constructor
  · intro applied
    exact ⟨sclkExact.mp applied.sclk, mclkExact.mp applied.mclk,
      voltage_exact_iff.mp (vddc ▸ applied.vddc), voltage_exact_iff.mp (vddci ▸ applied.vddci)⟩
  · intro lands
    exact ⟨sclkExact.mpr lands.sclk, mclkExact.mpr lands.mclk,
      vddc.trans (voltage_exact_iff.mpr lands.vddc),
      vddci.trans (voltage_exact_iff.mpr lands.vddci), vddc ▸ accepted.vddc,
      vddci ▸ accepted.vddci⟩

theorem applied_current_iff (accepted : Accepted stack line current) :
    Applied line current current ↔ Already line current := by
  constructor
  · intro applied
    exact ⟨wanted_old_iff.mp applied.sclk, wanted_old_iff.mp applied.mclk,
      wanted_old_iff.mp applied.vddc, wanted_old_iff.mp applied.vddci⟩
  · intro already
    have vddcSame := voltage_of_inEffect already.vddc
    have vddciSame := voltage_of_inEffect already.vddci
    exact ⟨wanted_old_iff.mpr already.sclk, wanted_old_iff.mpr already.mclk,
      wanted_old_iff.mpr already.vddc, wanted_old_iff.mpr already.vddci,
      vddcSame ▸ accepted.vddc, vddciSame ▸ accepted.vddci⟩

/-! ## The write -/

/-- The ways a write can go. -/
inductive WriteCourse (o : PmOutcomes) (stack buf : List Byte) (count : Nat) (d : PmDevice) :
    Except Fault StoreResult → Prop
  | refused : d.pmMethod ≠ .profile →
      WriteCourse o stack buf count d (.ok ⟨-einval, d, [.lock .pmMutex, .unlock .pmMutex]⟩)
  | overrun : d.pmMethod = .profile → ¬ ((scanLine buf).head.getD []).length < 256 →
      WriteCourse o stack buf count d (.error .outOfBounds)
  | rejected : d.pmMethod = .profile → ((scanLine buf).head.getD []).length < 256 →
      ¬ Accepted stack (scanLine buf) d.current →
      WriteCourse o stack buf count d (.ok ⟨-einval, d, [.lock .pmMutex, .unlock .pmMutex]⟩)
  | passed : d.pmMethod = .profile → ((scanLine buf).head.getD []).length < 256 →
      Accepted stack (scanLine buf) d.current →
      WriteCourse o stack buf count d (.ok ⟨count,
        (setClocksVoltagesRaw o ((scanLine buf).settings d.current).clocks d).1,
        .lock .pmMutex :: ((setClocksVoltagesRaw o ((scanLine buf).settings d.current).clocks d).2 ++
          [.unlock .pmMutex])⟩)

theorem writeCourse (o : PmOutcomes) (stack buf : List Byte) (count : Nat) (d : PmDevice) :
    WriteCourse o stack buf count d (setPmClocks o stack buf count d) := by
  by_cases profile : d.pmMethod = .profile
  swap
  · rw [setPmClocks, if_pos profile]
    exact .refused profile
  rw [setPmClocks, if_neg (not_not_intro profile)]
  by_cases short : ((scanLine buf).head.getD []).length < 256
  swap
  · simp only [if_pos (Nat.not_lt.mp short)]
    exact .overrun profile short
  simp only [if_neg (Nat.not_le.mpr short)]
  cases set : (scanLine buf).isSet stack with
  | false =>
      refine .rejected profile short fun accepted => ?_
      cases set.symm.trans accepted.set
  | true =>
      cases low : ((scanLine buf).settings d.current).tooLow with
      | true =>
          refine .rejected profile short fun accepted => ?_
          cases low.symm.trans (accepted_iff.mp accepted).2.1
      | false =>
          cases high : ((scanLine buf).settings d.current).tooHigh with
          | true =>
              refine .rejected profile short fun accepted => ?_
              cases high.symm.trans (accepted_iff.mp accepted).2.2
          | false => exact .passed profile short (accepted_iff.mpr ⟨set, low, high⟩)

theorem still_rejected : Still [.lock .pmMutex, .unlock .pmMutex] := by
  simp [Still, PmEvent.isSetting]

/-- A write that passes the checks succeeds, and in effect is what the driver's record says. -/
theorem exactly_passed_iff (o : PmOutcomes) (line : ClockLine) (new : Clocks) (d : PmDevice) :
    Exactly count line d.current (.ok ⟨count, (setClocksVoltagesRaw o new d).1,
      .lock .pmMutex :: ((setClocksVoltagesRaw o new d).2 ++ [.unlock .pmMutex])⟩) ↔
      Applied line d.current (setClocksVoltagesRaw o new d).1.current := by
  have hardware : (.lock .pmMutex ::
      ((setClocksVoltagesRaw o new d).2 ++ [.unlock .pmMutex])).foldl Clocks.after d.current =
        (setClocksVoltagesRaw o new d).1.current := by
    rw [List.foldl_cons, List.foldl_append]
    exact foldl_setClocksVoltagesRaw o new d
  have success : (count : Int) ≠ -einval := by
    unfold einval
    omega
  rw [Exactly, hardware]
  tauto

theorem setPmClocks_exact_iff (o : PmOutcomes) (stack buf : List Byte) (count : Nat)
    (d : PmDevice) :
    Exactly count (scanLine buf) d.current (setPmClocks o stack buf count d) ↔
      d.pmMethod ≠ .profile ∨
        ((scanLine buf).head.getD []).length < 256 ∧
          (Accepted stack (scanLine buf) d.current →
            (Drains o d.ringReady ∧ o.guiIdle = true → Lands (scanLine buf) d) ∧
            (¬ (Drains o d.ringReady ∧ o.guiIdle = true) →
              Already (scanLine buf) d.current)) := by
  have way := writeCourse o stack buf count d
  generalize setPmClocks o stack buf count d = result at way ⊢
  cases way with
  | refused other => exact iff_of_true (.inl ⟨rfl, still_rejected⟩) (.inl other)
  | overrun profile long =>
      exact iff_of_false id fun either => either.elim (absurd profile) fun both => long both.1
  | rejected profile short unfit =>
      exact iff_of_true (.inl ⟨rfl, still_rejected⟩) (.inr ⟨short, fun yes => absurd yes unfit⟩)
  | passed profile short accepted =>
      rw [exactly_passed_iff]
      have reaches := sets_iff (o := o) profile accepted
      by_cases ready : Drains o d.ringReady ∧ o.guiIdle = true
      · rw [(calls_of_sets (reaches.mpr ready)).1, applied_reached_iff accepted]
        tauto
      · rw [(calls_of_not_sets (mt reaches.mp ready)).1, applied_current_iff accepted]
        tauto

/-- The attribute is refused under DYNPM, so no write to it keeps a lock. -/
theorem setPmClocks_locks {r : StoreResult} (buf : List Byte)
    (written : setPmClocks o stack buf count d = .ok r) :
    Bracket.run PmEvent.bracket [] r.trace = some [] := by
  have way := writeCourse o stack buf count d
  rw [written] at way
  cases way with
  | refused => rfl
  | rejected => rfl
  | passed profile =>
      have frees : ¬ ReturnsLocked o ((scanLine buf).settings d.current).clocks d := fun locked =>
        absurd (profile.symm.trans locked.2.2.2.1) (by simp)
      exact (neutral_setClocksVoltagesRaw frees).wrap (a := .pmMutex) rfl rfl []

end

/-- Nothing is named, and the engine clock, not in whole MHz, is lowered. -/
theorem setPmClocks_rounds :
    ¬ Exactly 4 (scanLine (text "set\n")) ⟨80050, 100000, 1000, 900⟩
      (setPmClocks calm [] (text "set\n") 4 (card .profile ⟨80050, 100000, 1000, 900⟩)) := by
  decide

/-- 42949673 MHz are set as 40 kHz. -/
example : ¬ Exactly 12 (scanLine (text "set 42949673")) ⟨80000, 100000, 1000, 900⟩
    (setPmClocks calm [] (text "set 42949673") 12 (card .profile ⟨80000, 100000, 1000, 900⟩)) := by
  decide

/-- While the GUI is busy the write succeeds and sets nothing. -/
example : ¬ Exactly 7 (scanLine (text "set 900")) ⟨80000, 100000, 1000, 900⟩
    (setPmClocks { calm with guiIdle := false } [] (text "set 900") 7
      (card .profile ⟨80000, 100000, 1000, 900⟩)) := by
  decide

end RadeonsiCompute
