import Mathlib.Order.Lattice
import Mathlib.Order.Defs.LinearOrder
import Mathlib.Order.MinMax
import Mathlib.Tactic.Cases

/-!
# Clocks and their supply

A part that runs at a clock and needs the more voltage the higher the clock is.
Clock and voltage are changed one after the other; which of the two may come
first depends on whether the clock rises or falls.
-/

namespace RadeonsiCompute.Lib

/-- Where a clock domain is run. -/
structure Operating (C V : Type) where
  clock : C
  voltage : V

namespace Operating

variable {C V : Type} [LinearOrder C] [LinearOrder V]

/-- Both change, the clock is the higher of the two and the voltage the lower. -/
def Lags (old new point : Operating C V) : Prop :=
  old.clock ≠ new.clock ∧ old.voltage ≠ new.voltage ∧
    point.clock = max old.clock new.clock ∧ point.voltage = min old.voltage new.voltage

instance (old new point : Operating C V) : Decidable (Lags old new point) :=
  inferInstanceAs (Decidable (_ ∧ _ ∧ _ ∧ _))

/-- The voltage is not lowered for a higher clock, nor raised for a lower one. -/
structure Sensible (old new : Operating C V) : Prop where
  rising : old.clock < new.clock → old.voltage ≤ new.voltage
  falling : new.clock < old.clock → new.voltage ≤ old.voltage

variable {old new : Operating C V}

theorem not_lags_old (sensible : Sensible old new) : ¬ Lags old new old := by
  rintro ⟨clocks, voltages, high, low⟩
  have falls : new.clock < old.clock := lt_of_le_of_ne (max_eq_left_iff.mp high.symm) clocks.symm
  exact voltages (le_antisymm (min_eq_left_iff.mp low.symm) (sensible.falling falls))

theorem not_lags_new (sensible : Sensible old new) : ¬ Lags old new new := by
  rintro ⟨clocks, voltages, high, low⟩
  have rises : old.clock < new.clock := lt_of_le_of_ne (max_eq_right_iff.mp high.symm) clocks
  exact voltages (le_antisymm (sensible.rising rises) (min_eq_right_iff.mp low.symm))

/-- The clock may be changed first unless it rises. -/
theorem lags_clock_first (sensible : Sensible old new) :
    Lags old new ⟨new.clock, old.voltage⟩ ↔
      old.clock < new.clock ∧ old.voltage ≠ new.voltage := by
  constructor
  · rintro ⟨clocks, voltages, high, _⟩
    exact ⟨lt_of_le_of_ne (max_eq_right_iff.mp high.symm) clocks, voltages⟩
  · rintro ⟨rises, voltages⟩
    exact ⟨rises.ne, voltages, (max_eq_right rises.le).symm,
      (min_eq_left (sensible.rising rises)).symm⟩

/-- The voltage may be changed first unless the clock falls. -/
theorem lags_voltage_first (sensible : Sensible old new) :
    Lags old new ⟨old.clock, new.voltage⟩ ↔
      new.clock < old.clock ∧ old.voltage ≠ new.voltage := by
  constructor
  · rintro ⟨clocks, voltages, high, _⟩
    exact ⟨lt_of_le_of_ne (max_eq_left_iff.mp high.symm) clocks.symm, voltages⟩
  · rintro ⟨falls, voltages⟩
    exact ⟨falls.ne', voltages, (max_eq_left falls.le).symm,
      (min_eq_right (sensible.falling falls)).symm⟩

end Operating

end RadeonsiCompute.Lib
