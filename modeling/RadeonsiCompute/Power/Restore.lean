import RadeonsiCompute.Lib.Template
import RadeonsiCompute.Power.Runs

/-!
# Reading the attribute

`radeon_get_pm_clocks` prints the settings in effect with what else the driver
knows. The text always fits its page, and by the same template the numbers are
read back from it. So settings can be saved: a line made of the numbers that were
read sets them again, in whatever state the device is by then, and the attribute
then reads as before.
-/

namespace RadeonsiCompute

open Lib

/-- What the rest of the driver answers to a read. -/
structure PmAnswers where
  engineClock : BitVec 32
  memoryClock : BitVec 32
  maxVddc : BitVec 16
  minVddc : BitVec 16
  maxVddci : BitVec 16
  minVddci : BitVec 16

/-- The format of the read. -/
def clocksTemplate : Template :=
  [.plain (text "engine_clk: "), .number, .plain (text " MHz memory_clk: "), .number,
    .plain (text " MHz\nget: sclk: "), .number, .plain (text " MHz mclk: "), .number,
    .plain (text " MHz\nVDDC: "), .number, .plain (text " VDDCI: "), .number,
    .plain (text "\nMAX_VDDC: "), .number, .plain (text " MIN_VDDC: "), .number,
    .plain (text "\nMAX_VDDCI: "), .number, .plain (text " MIN_VDDCI: "), .number,
    .plain (text "\n"), .number, .plain (text "\n")]

def pageSize : Nat := 4096

/-- The arguments of the read. -/
def readNumbers (a : PmAnswers) (d : PmDevice) : List Nat :=
  [(d.current.sclk / 100).toNat, (d.current.mclk / 100).toNat, (a.engineClock / 100).toNat,
    (a.memoryClock / 100).toNat, d.current.vddc.toNat, d.current.vddci.toNat, a.maxVddc.toNat,
    a.minVddc.toNat, a.maxVddci.toNat, a.minVddci.toNat, 42]

/-- `radeon_get_pm_clocks`: what it returns and what it leaves in the page. -/
def getPmClocks (a : PmAnswers) (d : PmDevice) : Nat × List Byte :=
  let s := clocksTemplate.render (readNumbers a d)
  (s.length, snprintf pageSize s)

/-! ## The read -/

theorem clocksTemplate_separated : clocksTemplate.Separated := by decide

theorem readNumbers_lt (a : PmAnswers) (d : PmDevice) : ∀ n ∈ readNumbers a d, n < 10 ^ 10 := by
  have word (v : BitVec 32) : v.toNat < 10 ^ 10 := Nat.lt_trans v.isLt (by decide)
  have half (v : BitVec 16) : v.toNat < 10 ^ 10 := Nat.lt_trans v.isLt (by decide)
  simp only [readNumbers, List.forall_mem_cons]
  exact ⟨word _, word _, word _, word _, half _, half _, half _, half _, half _, half _, by decide,
    List.forall_mem_nil _⟩

/-- A read is never cut short, and its numbers are read back. -/
theorem getPmClocks_spec (a : PmAnswers) (d : PmDevice) :
    (getPmClocks a d).1 = (getPmClocks a d).2.length ∧
      clocksTemplate.parse (getPmClocks a d).2 = some (readNumbers a d) := by
  have length : (clocksTemplate.render (readNumbers a d)).length ≤ 4095 :=
    Nat.le_trans (Template.length_render_le (by decide) (readNumbers_lt a d)) (by decide)
  have whole : (getPmClocks a d).2 = clocksTemplate.render (readNumbers a d) :=
    List.take_of_length_le length
  rw [whole]
  exact ⟨rfl, Template.parse_render clocksTemplate_separated rfl⟩

/-! ## A line that sets -/

/-- `"set %u %u %u %u\n"`. -/
def setTemplate : Template :=
  [.plain (text "set "), .number, .plain (text " "), .number, .plain (text " "), .number,
    .plain (text " "), .number, .plain (text "\n")]

/-- The settings among the numbers that were read. -/
def savedSettings (ns : List Nat) : List Nat := [ns.getD 0 0, ns.getD 1 0, ns.getD 4 0, ns.getD 5 0]

/-- The line that sets what was read. -/
def restoreLine (ns : List Nat) : List Byte := setTemplate.render (savedSettings ns)

section Line

variable {rest : List Byte}

theorem kernelSpace_of_visible {b : Byte} (lo : 32 < b.toNat) (hi : b.toNat < 127) :
    kernelSpace b = false := by
  have notBlank : isSpace b = false := by
    have visible := (show Visible [b] from by simp [Visible, lo, hi]).notSpace b (by simp)
    simpa [notSpace] using visible
  have notBreak : b ≠ 0xA0 := by
    rintro rfl
    exact absurd hi (by decide)
  simp [kernelSpace, notBlank, notBreak]

/-- A number behind a blank is read, and the rest left for the next. -/
theorem scanFields_decimal (k n : Nat) (stop : ∀ b ∈ rest.head?, isDigit 10 b = false) :
    scanFields (k + 1) (32 :: (decimal n ++ rest)) = n :: scanFields k rest := by
  have visible := visible_decimal n
  have nonempty := decimal_ne_nil n
  have skipped : (32 :: (decimal n ++ rest)).dropWhile kernelSpace = decimal n ++ rest := by
    rw [List.dropWhile_cons_of_pos (by decide)]
    cases digits : decimal n with
    | nil => exact absurd digits nonempty
    | cons b s =>
        obtain ⟨lo, hi⟩ := visible b (by simp [digits])
        rw [List.cons_append]
        exact List.dropWhile_cons_of_neg (by simp [kernelSpace_of_visible lo hi])
  rw [scanFields, skipped, scanDigits_digits nonempty (isDigit_decimal n) stop, numeral_decimal]

/-- The line as it is taken apart. -/
theorem scanLine_setTemplate (a b c d : Nat) :
    scanLine (setTemplate.render [a, b, c, d]) = ⟨some (text "set"), [a, b, c, d]⟩ := by
  have line : setTemplate.render [a, b, c, d] = text "set" ++ 32 :: (decimal a ++ 32 ::
      (decimal b ++ 32 :: (decimal c ++ 32 :: (decimal d ++ [10])))) := rfl
  have nonzero (n : Nat) : ∀ b ∈ decimal n, b ≠ 0 := by
    rintro b member rfl
    exact absurd (visible_decimal n 0 member).1 (by decide)
  have head : ∀ b ∈ text "set", b ≠ 0 := by
    show ∀ b ∈ [byte 's', byte 'e', byte 't'], b ≠ 0
    simp [byte]
  have whole : cString (setTemplate.render [a, b, c, d]) = setTemplate.render [a, b, c, d] := by
    rw [line, cString, List.takeWhile_eq_self_iff]
    simp only [List.forall_mem_append, List.forall_mem_cons, decide_eq_true_eq]
    exact ⟨head, by decide, nonzero a, by decide, nonzero b, by decide, nonzero c, by decide,
      nonzero d, by decide, List.forall_mem_nil _⟩
  have stops {b : Byte} (other : isDigit 10 b = false) (s : List Byte) :
      ∀ c ∈ (b :: s).head?, isDigit 10 c = false := by
    intro c first
    obtain rfl : b = c := Option.some.inj first
    exact other
  have blank := @stops 32 (by decide)
  have newline := @stops 10 (by decide) []
  -- the word ends at the first blank, and each number at the next
  have word (s : List Byte) :
      (text "set" ++ 32 :: s).dropWhile kernelSpace = text "set" ++ 32 :: s ∧
        (text "set" ++ 32 :: s).takeWhile (fun b => !kernelSpace b) = text "set" ∧
        (text "set" ++ 32 :: s).dropWhile (fun b => !kernelSpace b) = 32 :: s := ⟨rfl, rfl, rfl⟩
  rw [scanLine, whole, line]
  simp only [word, scanFields_decimal _ _ (blank _), scanFields_decimal _ _ newline]
  rfl

end Line

/-! ## Saving and restoring -/

/-- Clocks in whole MHz. -/
def Clocks.wholeMhz (c : Clocks) : Clocks :=
  { c with sclk := c.sclk / 100 * 100, mclk := c.mclk / 100 * 100 }

/-- The voltages are such as the attribute lets through. -/
structure Clocks.Settable (c : Clocks) : Prop where
  vddc : 100 ≤ c.vddc.toNat ∧ c.vddc.toNat ≤ 1410
  vddci : 100 ≤ c.vddci.toNat ∧ c.vddci.toNat ≤ 950

section Restore

variable {d : PmDevice}

theorem scanLine_restoreLine (a : PmAnswers) (d : PmDevice) :
    scanLine (restoreLine (readNumbers a d)) =
      ⟨some (text "set"), [(d.current.sclk / 100).toNat, (d.current.mclk / 100).toNat,
        d.current.vddc.toNat, d.current.vddci.toNat]⟩ := scanLine_setTemplate _ _ _ _

theorem savedSettings_readNumbers (a : PmAnswers) (d : PmDevice) :
    savedSettings (readNumbers a d) = [(d.current.sclk / 100).toNat, (d.current.mclk / 100).toNat,
      d.current.vddc.toNat, d.current.vddci.toNat] := rfl

/-- What the line passes on are the settings that were saved. -/
theorem clocks_restoreLine (a : PmAnswers) (d : PmDevice) (current : Clocks) :
    ((scanLine (restoreLine (readNumbers a d))).settings current).clocks = d.current.wholeMhz := by
  have word (v : BitVec 32) : BitVec.ofNat 32 v.toNat = v := by simp
  have half (v : BitVec 16) : (BitVec.ofNat 32 v.toNat).setWidth 16 = v := by simp
  rw [scanLine_restoreLine]
  show Clocks.mk (BitVec.ofNat 32 _ * 100) (BitVec.ofNat 32 _ * 100)
    ((BitVec.ofNat 32 _).setWidth 16) ((BitVec.ofNat 32 _).setWidth 16) = _
  rw [word, word, half, half]
  rfl

/-- The line passes the checks, whatever is in effect by then. -/
theorem accepted_restoreLine (a : PmAnswers) (settable : d.current.Settable) (stack : List Byte)
    (current : Clocks) : Accepted stack (scanLine (restoreLine (readNumbers a d))) current := by
  have stored (v : BitVec 16) (old : Nat) : storedVoltage (some v.toNat) old = v.toNat :=
    Nat.mod_eq_of_lt (Nat.lt_trans v.isLt (by decide))
  rw [scanLine_restoreLine]
  constructor
  · rfl
  · show 100 ≤ storedVoltage (some d.current.vddc.toNat) _ ∧
      storedVoltage (some d.current.vddc.toNat) _ ≤ 1410
    rw [stored]
    exact settable.vddc
  · show 100 ≤ storedVoltage (some d.current.vddci.toNat) _ ∧
      storedVoltage (some d.current.vddci.toNat) _ ≤ 950
    rw [stored]
    exact settable.vddci

/-- Whole MHz are shown as they were. -/
theorem wholeMhz_shown (v : BitVec 32) : v / 100 * 100 / 100 = v / 100 := by
  refine BitVec.eq_of_toNat_eq ?_
  have bound := v.isLt
  have product : (v / 100 * 100).toNat = v.toNat / 100 * 100 := by
    simp
    omega
  show (v / 100 * 100).toNat / 100 = v.toNat / 100
  rw [product]
  omega

/-- **Settings can be saved and restored.** In every state a read fills one page with the
numbers that it shows. What it shows of the settings is set again by the line made of it, exactly
up to whole MHz, and then shown again, whatever was set in between and whatever else the two
reads show. -/
theorem getPmClocks_restores (o : PmOutcomes) (stack : List Byte) (count : Nat) (a a' : PmAnswers)
    (d d' : PmDevice) : (getPmClocks a d).1 = (getPmClocks a d).2.length ∧
      clocksTemplate.parse (getPmClocks a d).2 = some (readNumbers a d) ∧
      (d.current.Settable → d'.pmMethod = .profile → Drains o d'.ringReady → o.guiIdle = true →
        d'.hasSetMemoryClock = true →
        ∃ ns r, setPmClocks o stack (restoreLine (readNumbers a d)) count d' = .ok r ∧
          r.ret = count ∧ r.trace.foldl Clocks.after d'.current = d.current.wholeMhz ∧
          clocksTemplate.parse (getPmClocks a' r.device).2 = some ns ∧
          savedSettings ns = savedSettings (readNumbers a d)) := by
  obtain ⟨length, parsed⟩ := getPmClocks_spec a d
  refine ⟨length, parsed, fun settable profile drains idle hasSetter => ?_⟩
  have accepted := accepted_restoreLine a settable stack d'.current
  have way := writeCourse o stack (restoreLine (readNumbers a d)) count d'
  generalize setPmClocks o stack (restoreLine (readNumbers a d)) count d' = result at way ⊢
  cases way with
  | refused other => exact absurd profile other
  | overrun _ long =>
      rw [scanLine_restoreLine] at long
      exact absurd (show (text "set").length < 256 by decide) long
  | rejected _ _ unfit => exact absurd accepted unfit
  | passed =>
      have sets := (sets_iff profile accepted).mpr ⟨drains, idle⟩
      have reached := (calls_of_sets sets).1
      have hardware := foldl_setClocksVoltagesRaw o
        ((scanLine (restoreLine (readNumbers a d))).settings d'.current).clocks d'
      rw [clocks_restoreLine] at reached hardware ⊢
      have device : (setClocksVoltagesRaw o d.current.wholeMhz d').1.current =
          d.current.wholeMhz := by
        rw [reached, RadeonsiCompute.reached, if_pos hasSetter]
      refine ⟨_, _, rfl, rfl, ?_, (getPmClocks_spec a' _).2, ?_⟩
      · rw [List.foldl_cons, List.foldl_append]
        exact hardware.trans device
      · rw [savedSettings_readNumbers, savedSettings_readNumbers, device]
        simp only [Clocks.wholeMhz, wholeMhz_shown]

end Restore

/-- Settings of a card that has been changed since. -/
theorem getPmClocks_restores_changed :
    ∃ ns ns' r, clocksTemplate.parse (getPmClocks ⟨80000, 100000, 1175, 800, 950, 850⟩
        (card .profile ⟨80050, 100000, 1000, 900⟩)).2 = some ns ∧
      setPmClocks calm [] (restoreLine ns) 21 (card .profile ⟨30000, 15000, 800, 850⟩) = .ok r ∧
      r.ret = 21 ∧
      r.trace.foldl Clocks.after ⟨30000, 15000, 800, 850⟩ = ⟨80000, 100000, 1000, 900⟩ ∧
      clocksTemplate.parse (getPmClocks ⟨79990, 99990, 1175, 800, 950, 850⟩ r.device).2 =
        some ns' ∧
      savedSettings ns' = savedSettings ns := by
  obtain ⟨-, parsed, restores⟩ := getPmClocks_restores calm []
    21 ⟨80000, 100000, 1175, 800, 950, 850⟩ ⟨79990, 99990, 1175, 800, 950, 850⟩
    (card .profile ⟨80050, 100000, 1000, 900⟩) (card .profile ⟨30000, 15000, 800, 850⟩)
  obtain ⟨ns', r, written, ret, hw, parsed', same⟩ :=
    restores ⟨by decide, by decide⟩ rfl (fun _ _ => rfl) rfl rfl
  exact ⟨_, ns', r, parsed, written, ret, hw, parsed', same⟩

end RadeonsiCompute
