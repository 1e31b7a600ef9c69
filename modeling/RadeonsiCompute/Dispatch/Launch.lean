import RadeonsiCompute.Dispatch.Program

/-!
# Launches

`ComputeInterface::launch` of `compute_interface.cpp` turns its arguments into
a compute state and emits it. Sizes are narrowed from `size_t` to `int` and
then cut to the fields of their registers, and register counts and local memory
are rounded up to the units the hardware allocates in.
-/

namespace RadeonsiCompute

open Lib

/-- The arguments of `launch`, with its defaults. -/
structure LaunchArgs where
  userData : List Dword
  threadOffset : List SizeT
  blockDim : List SizeT
  localSize : List SizeT
  code : BufPtr
  usedMemories : List BufPtr
  localMemSize : CInt := 32 * 1024
  vgprnum : CInt := 0
  sgprnum : CInt := 0

/-- `std::vector::resize(count, value)`. -/
def resize (values : List SizeT) (count : Nat) (value : SizeT) : List SizeT :=
  values.take count ++ List.replicate (count - values.length) value

@[simp] theorem length_resize (values : List SizeT) (count : Nat) (value : SizeT) :
    (resize values count value).length = count := by
  rw [resize, List.length_append, List.length_take, List.length_replicate]
  omega

/-- A `size_t` stored in an `int`. -/
def sizeToInt (x : SizeT) : CInt := x.setWidth 32

/-- The first three values, padded, as `int`s. -/
def resizedInts (values : List SizeT) (value : SizeT) (d : Fin 3) : CInt :=
  sizeToInt ((resize values 3 value).get (d.cast (length_resize values 3 value).symm))

namespace LaunchArgs

variable (args : LaunchArgs)

/-- `vgprnum`, after its default was put in. -/
def vgprs : CInt := if args.vgprnum = 0 then 256 else args.vgprnum

/-- `sgprnum`, after its default was put in. -/
def sgprs : CInt := if args.sgprnum = 0 then 104 else args.sgprnum

/-- The state `launch` fills in. What it leaves uninitialised of the user data is not read. -/
def state : ComputeState where
  id := 0
  userData i := args.userData.getD i 0
  userDataLength := .ofNat 32 args.userData.length
  dim := resizedInts args.blockDim 1
  start := resizedInts args.threadOffset 0
  numThread := resizedInts args.localSize 1
  sgprNum := (args.sgprs + 7).sdiv 8 - 1
  vgprNum := (args.vgprs + 3).sdiv 4 - 1
  priority := 0
  debugMode := 0
  privMode := 0
  trapEn := 0
  excpEn := 0
  ieeeMode := 1
  scratchEn := 0
  ldsSize := (args.localMemSize + 255).sdiv 256
  wavesPerSh := 0
  threadGroupsPerCu := 0
  lockThreshold := 0
  simdDestCntl := 0
  se0Sh0CuEn := 0xFF
  se0Sh1CuEn := 0xFF
  se1Sh0CuEn := 0xFF
  se1Sh1CuEn := 0xFF
  tmpringWaves := 0
  tmpringWavesize := 0
  binary := args.code

/-- The assertions of `launch`, in order. -/
def check : Except Fault Unit := do
  assertThat (args.localMemSize.sle (32 * 1024)) "localMemSize <= 32*1024"
  assertThat (args.vgprnum.slt 257) "vgprnum < 257"
  assertThat (args.sgprnum.slt 129) "sgprnum < 129"
  assertThat (args.localSize.length = args.blockDim.length) "localSize.size() == blockDim.size()"
  assertThat (args.localSize.length ≤ 3) "localSize.size() <= 3"
  assertThat (args.localSize.length > 0) "localSize.size() > 0"
  assertThat (args.userData.length ≤ 16) "userData.size() <= 16"

end LaunchArgs

/-- `ComputeInterface::launch`. What `strerror` adds to the message is left out. -/
def launch {κ : Type} (drm : CsDrm κ) (h : Heap) (context : Addr) (args : LaunchArgs)
    (w : CsWorld κ) : Except Fault (CsWorld κ) := do
  args.check
  let crelocs ← args.usedMemories.foldlM (computePushReloc h) []
  let (ret, w) ← computeEmitComputeStateManualRelocs drm h context args.state crelocs w
  if ret ≠ 0 then .error (.exception "Error while running kernel: ") else .ok w

/-! ## What was asked for -/

/-- Each supplied value is read back, and the others read the default. -/
def Supplied (read : Fin 3 → Nat) (values : List SizeT) (missing : SizeT) : Prop :=
  (∀ i (_ : i < values.length), ∃ d : Fin 3, d.val = i ∧ read d = values[i].toNat) ∧
    ∀ d : Fin 3, values.length ≤ d.val → read d = missing.toNat

/-- An allocation of what is wanted, by less than a unit too large. -/
def Covers (allocated : Nat) (wanted : Int) (unit : Nat) : Prop :=
  wanted ≤ allocated ∧ (allocated : Int) < wanted + unit

/-- The registers hold what `launch` was asked for. -/
structure ExactLaunch (regs : Nat → Dword) (args : LaunchArgs) : Prop where
  dim : Supplied (fun d => (regs (Reg.computeDim d).toNat).toNat) args.blockDim 1
  start : Supplied (fun d => (regs (Reg.computeStart d).toNat).toNat) args.threadOffset 0
  numThread : Supplied (fun d => (NumThread.full.get (regs (Reg.computeNumThread d).toNat)).toNat)
    args.localSize 1
  vgprs : Covers (4 * ((PgmRsrc1.vgprs.get (regs Reg.computePgmRsrc1.toNat)).toNat + 1))
    (if args.vgprnum = 0 then 256 else args.vgprnum.toInt) 4
  sgprs : Covers (8 * ((PgmRsrc1.sgprs.get (regs Reg.computePgmRsrc1.toNat)).toNat + 1))
    (if args.sgprnum = 0 then 104 else args.sgprnum.toInt) 8
  lds : Covers (256 * (PgmRsrc2.ldsSize.get (regs Reg.computePgmRsrc2.toNat)).toNat)
    args.localMemSize.toInt 256
  userSgpr : (PgmRsrc2.userSgpr.get (regs Reg.computePgmRsrc2.toNat)).toNat = args.userData.length
  userData : ∀ i (_ : i < args.userData.length),
    regs (Reg.computeUserData0.toNat + 4 * i) = args.userData[i]

/-- The arguments that survive the narrowing: no more than three offsets, sizes
that fit their registers, and counts that are not negative. -/
structure LaunchArgs.Fits (args : LaunchArgs) : Prop where
  threadOffset_length : args.threadOffset.length ≤ 3
  blockDim : ∀ v ∈ args.blockDim, v.toNat < 2 ^ 32
  threadOffset : ∀ v ∈ args.threadOffset, v.toNat < 2 ^ 32
  localSize : ∀ v ∈ args.localSize, v.toNat < 2 ^ 16
  vgprnum : 0 ≤ args.vgprnum.toInt
  sgprnum : 0 ≤ args.sgprnum.toInt
  localMemSize : -256 < args.localMemSize.toInt

/-! ## Sizes -/

section Sizes

variable {values : List SizeT} {value : SizeT}

theorem resize_getElem {count i : Nat} (inside : i < (resize values count value).length) :
    (resize values count value)[i] = values.getD i value := by
  have bound : i < count := by rwa [length_resize] at inside
  have taken : (values.take count).length = min count values.length := List.length_take
  rw [List.getD_eq_getElem?_getD, List.getElem_of_eq (resize.eq_def values count value) inside]
  by_cases supplied : i < values.length
  · rw [List.getElem_append_left (by omega), List.getElem_take, List.getElem?_eq_getElem supplied,
      Option.getD_some]
  · rw [List.getElem_append_right (by omega), List.getElem_replicate,
      List.getElem?_eq_none (Nat.le_of_not_lt supplied), Option.getD_none]

theorem resizedInts_toNat (d : Fin 3) :
    (resizedInts values value d).toNat = (values.getD d value).toNat % 2 ^ 32 := by
  rw [resizedInts, List.get_eq_getElem, resize_getElem, sizeToInt, BitVec.toNat_setWidth]
  rfl

/-- Values cut to `bits` bits, three at most, are as supplied when each fits
and there are not more than three. -/
theorem supplied_iff {read : Fin 3 → Nat} {bits : Nat} (fits : value.toNat < 2 ^ bits)
    (cut : ∀ d : Fin 3, read d = (values.getD d value).toNat % 2 ^ bits) :
    Supplied read values value ↔ values.length ≤ 3 ∧ ∀ v ∈ values, v.toNat < 2 ^ bits := by
  have supplied : ∀ (d : Fin 3) (inside : d.val < values.length),
      values.getD d value = values[d.val] := by
    intro d inside
    rw [List.getD_eq_getElem?_getD, List.getElem?_eq_getElem inside, Option.getD_some]
  constructor
  · rintro ⟨all, -⟩
    constructor
    · by_contra many
      obtain ⟨d, third, -⟩ := all 3 (by omega)
      omega
    · intro v member
      obtain ⟨i, inside, rfl⟩ := List.mem_iff_getElem.mp member
      obtain ⟨d, rfl, same⟩ := all i inside
      rw [cut, supplied d inside] at same
      rw [← same]
      exact Nat.mod_lt _ (Nat.two_pow_pos bits)
  · rintro ⟨few, small⟩
    constructor
    · intro i inside
      let d : Fin 3 := ⟨i, by omega⟩
      refine ⟨d, rfl, ?_⟩
      rw [cut, supplied d inside, Nat.mod_eq_of_lt (small _ (List.getElem_mem inside))]
    · intro d missing
      rw [cut, List.getD_eq_getElem?_getD, List.getElem?_eq_none missing, Option.getD_none,
        Nat.mod_eq_of_lt fits]

end Sizes

/-! ## Allocation units -/

theorem sdiv_toNat {x y : CInt} (hx : x.toNat < 2 ^ 31) (hy : y.toNat < 2 ^ 31) :
    (x.sdiv y).toNat = x.toNat / y.toNat := by
  have xMsb : x.msb = false := BitVec.msb_eq_false_iff_two_mul_lt.mpr (by omega)
  have yMsb : y.msb = false := BitVec.msb_eq_false_iff_two_mul_lt.mpr (by omega)
  rw [BitVec.sdiv_eq, xMsb, yMsb]
  exact BitVec.toNat_udiv

/-- A wanted amount above `-unit` is rounded up to units. -/
theorem roundUp_covers {x unit : CInt} (some : 0 < unit.toNat) (small : unit.toNat ≤ 2 ^ 30)
    (lo : -(unit.toNat : Int) < x.toInt) (hi : x.toInt ≤ 2 ^ 30) :
    Covers (unit.toNat * ((x + (unit - 1)).sdiv unit).toNat) x.toInt unit.toNat := by
  have sum : ((x + (unit - 1)).toNat : Int) = x.toInt + (unit.toNat - 1) := by
    rw [BitVec.toInt_eq_toNat_cond] at lo hi ⊢
    split at lo <;> bv_omega
  have rounded : (((x + (unit - 1)).sdiv unit).toNat : Int) =
      (x.toInt + (unit.toNat - 1)) / unit.toNat := by
    rw [sdiv_toNat (by omega) (by omega), Int.natCast_ediv, sum]
  have below := @Int.mul_ediv_self_le (x.toInt + (unit.toNat - 1)) unit.toNat (by omega)
  have above := @Int.lt_mul_ediv_self_add (x.toInt + (unit.toNat - 1)) unit.toNat (by omega)
  rw [← rounded] at below above
  rw [Covers, Int.natCast_mul]
  omega

theorem Covers.units_le {unit units most : Nat} {wanted : Int}
    (covers : Covers (unit * units) wanted unit) (bound : wanted ≤ (unit * most : Nat)) :
    units ≤ most := by
  by_contra many
  have large := Nat.mul_le_mul_left unit (Nat.succ_le_of_lt (Nat.lt_of_not_le many))
  rw [Nat.succ_eq_add_one, Nat.mul_add, Nat.mul_one] at large
  have upper := covers.2
  omega

section

variable {x unit mask : CInt} {bits : Nat}

/-- A value below the number of values of the mask is kept. -/
theorem mask_keeps {y : CInt} (ones : mask.toNat = 2 ^ bits - 1) (below : y.toNat < 2 ^ bits) :
    (y &&& mask).toNat = y.toNat := by
  rw [BitVec.toNat_and, ones, Nat.and_two_pow_sub_one_eq_mod, Nat.mod_eq_of_lt below]

/-- Registers are allocated by the unit, one unit at least: exactly when their
count is positive. -/
theorem registers_covers_iff (ones : mask.toNat = 2 ^ bits - 1) (some : 0 < unit.toNat)
    (small : unit.toNat * 2 ^ bits ≤ 2 ^ 30) (most : x.toInt ≤ (unit.toNat * 2 ^ bits : Nat))
    (nonzero : x.toInt ≠ 0) :
    Covers (unit.toNat * ((((x + (unit - 1)).sdiv unit - 1) &&& mask).toNat + 1)) x.toInt
      unit.toNat ↔ 0 ≤ x.toInt := by
  have room : unit.toNat ≤ unit.toNat * 2 ^ bits :=
    Nat.le_mul_of_pos_right _ (Nat.two_pow_pos bits)
  constructor
  · rintro ⟨-, upper⟩
    have least := Nat.le_mul_of_pos_right unit.toNat
      (Nat.succ_pos ((((x + (unit - 1)).sdiv unit - 1) &&& mask).toNat))
    rw [Nat.succ_eq_add_one] at least
    generalize unit.toNat * _ = allocated at upper least
    omega
  · intro nonneg
    have covers := @roundUp_covers x unit some (by omega) (by omega) (by omega)
    have atMost := covers.units_le most
    generalize (x + (unit - 1)).sdiv unit = units at covers atMost ⊢
    have atLeast : 1 ≤ units.toNat := by
      by_contra zero
      have lower := covers.1
      rw [show units.toNat = 0 by omega] at lower
      omega
    have less : (units - 1).toNat = units.toNat - 1 := by bv_omega
    rwa [mask_keeps ones (by omega), less, Nat.sub_add_cancel atLeast]

/-- A count of zero stands for a default. -/
theorem registers_default_iff {default : CInt} (ones : mask.toNat = 2 ^ bits - 1)
    (some : 0 < unit.toNat) (small : unit.toNat * 2 ^ bits ≤ 2 ^ 30)
    (most : x.toInt ≤ (unit.toNat * 2 ^ bits : Nat)) (positive : 0 < default.toInt)
    (defaultMost : default.toInt ≤ (unit.toNat * 2 ^ bits : Nat)) :
    Covers (unit.toNat * (((((if x = 0 then default else x) + (unit - 1)).sdiv unit - 1) &&&
      mask).toNat + 1)) (if x = 0 then default.toInt else x.toInt) unit.toNat ↔ 0 ≤ x.toInt := by
  by_cases zero : x = 0
  · rw [if_pos zero, if_pos zero, registers_covers_iff ones some small defaultMost (by omega), zero]
    exact iff_of_true (by omega) (by decide)
  · have nonzero : x.toInt ≠ 0 := fun same => zero (BitVec.eq_of_toInt_eq same)
    rw [if_neg zero, if_neg zero]
    exact registers_covers_iff ones some small most nonzero

/-- Local memory is allocated by the unit: exactly when its size is above `-unit`. -/
theorem lds_covers_iff (ones : mask.toNat = 2 ^ bits - 1) (some : 0 < unit.toNat)
    (small : unit.toNat * (2 ^ bits - 1) ≤ 2 ^ 30) (fits : unit.toNat ≤ 2 ^ 30)
    (most : x.toInt ≤ (unit.toNat * (2 ^ bits - 1) : Nat)) :
    Covers (unit.toNat * ((x + (unit - 1)).sdiv unit &&& mask).toNat) x.toInt unit.toNat ↔
      -(unit.toNat : Int) < x.toInt := by
  constructor
  · rintro ⟨-, upper⟩
    generalize unit.toNat * _ = allocated at upper
    omega
  · intro above
    have covers := @roundUp_covers x unit some fits above (by omega)
    have atMost := covers.units_le most
    have positive := Nat.two_pow_pos bits
    rwa [mask_keeps ones (by omega)]

end

/-! ## The launch -/

/-- What the assertions of `launch` say. -/
structure LaunchArgs.Checked (args : LaunchArgs) : Prop where
  localMemSize : args.localMemSize.toInt ≤ 32 * 1024
  vgprnum : args.vgprnum.toInt < 257
  sgprnum : args.sgprnum.toInt < 129
  lengths : args.localSize.length = args.blockDim.length
  few : args.localSize.length ≤ 3
  some : args.localSize.length > 0
  userData : args.userData.length ≤ 16

theorem LaunchArgs.checked_of_ok {args : LaunchArgs} {u : Unit} (passed : args.check = .ok u) :
    args.Checked := by
  obtain ⟨_, localMemSize, passed⟩ := bind_eq_ok.mp passed
  obtain ⟨_, vgprnum, passed⟩ := bind_eq_ok.mp passed
  obtain ⟨_, sgprnum, passed⟩ := bind_eq_ok.mp passed
  obtain ⟨_, lengths, passed⟩ := bind_eq_ok.mp passed
  obtain ⟨_, few, passed⟩ := bind_eq_ok.mp passed
  obtain ⟨_, some, userData⟩ := bind_eq_ok.mp passed
  exact ⟨BitVec.sle_iff_toInt_le.mp (assertThat_eq_ok.mp localMemSize),
    BitVec.slt_iff_toInt_lt.mp (assertThat_eq_ok.mp vgprnum),
    BitVec.slt_iff_toInt_lt.mp (assertThat_eq_ok.mp sgprnum), assertThat_eq_ok.mp lengths,
    assertThat_eq_ok.mp few, assertThat_eq_ok.mp some, assertThat_eq_ok.mp userData⟩

theorem LaunchArgs.Checked.userDataLength {args : LaunchArgs} (checked : args.Checked) :
    args.state.userDataLength.toNat = args.userData.length := by
  have few := checked.userData
  show (BitVec.ofNat 32 args.userData.length).toNat = _
  rw [BitVec.toNat_ofNat, Nat.mod_eq_of_lt (by omega)]

/-! ## Exact launches -/

namespace Dispatched

variable {regs : Nat → Dword} {args : LaunchArgs} {va : BitVec 64}

theorem dim_supplied_iff (dispatched : Dispatched regs args.state va) :
    Supplied (fun d => (regs (Reg.computeDim d).toNat).toNat) args.blockDim 1 ↔
      args.blockDim.length ≤ 3 ∧ ∀ v ∈ args.blockDim, v.toNat < 2 ^ 32 := by
  apply supplied_iff (by decide)
  intro d
  rw [dispatched.dim]
  exact resizedInts_toNat d

theorem start_supplied_iff (dispatched : Dispatched regs args.state va) :
    Supplied (fun d => (regs (Reg.computeStart d).toNat).toNat) args.threadOffset 0 ↔
      args.threadOffset.length ≤ 3 ∧ ∀ v ∈ args.threadOffset, v.toNat < 2 ^ 32 := by
  apply supplied_iff (by decide)
  intro d
  rw [dispatched.start]
  exact resizedInts_toNat d

theorem numThread_supplied_iff (dispatched : Dispatched regs args.state va) :
    Supplied (fun d => (NumThread.full.get (regs (Reg.computeNumThread d).toNat)).toNat)
        args.localSize 1 ↔
      args.localSize.length ≤ 3 ∧ ∀ v ∈ args.localSize, v.toNat < 2 ^ 16 := by
  apply supplied_iff (by decide)
  intro d
  have narrowed := @resizedInts_toNat args.localSize 1 d
  have ones : NumThread.full.mask.toNat = 2 ^ 16 - 1 := by decide
  rw [dispatched.numThread, Field.get_set, Field.toNat_and_mask ones]
  show (resizedInts args.localSize 1 d).toNat % 2 ^ 16 = _
  rw [narrowed, Nat.mod_mod_of_dvd _ (by decide)]

/-- The fields of the registers that depend on the arguments. -/
theorem launch_fields (dispatched : Dispatched regs args.state va) :
    PgmRsrc1.vgprs.get (regs Reg.computePgmRsrc1.toNat) =
        args.state.vgprNum &&& PgmRsrc1.vgprs.mask ∧
      PgmRsrc1.sgprs.get (regs Reg.computePgmRsrc1.toNat) =
        args.state.sgprNum &&& PgmRsrc1.sgprs.mask ∧
      PgmRsrc2.userSgpr.get (regs Reg.computePgmRsrc2.toNat) =
        args.state.userDataLength &&& PgmRsrc2.userSgpr.mask ∧
      PgmRsrc2.ldsSize.get (regs Reg.computePgmRsrc2.toNat) =
        args.state.ldsSize &&& PgmRsrc2.ldsSize.mask := by
  have fields : ∀ r ∈ args.state.packed, ∀ p ∈ r.2, p.1.get (regs r.1.toNat) = p.2 &&& p.1.mask :=
    fun r member p listed => dispatched.field member listed
  simp only [ComputeState.packed, List.forall_mem_cons, List.not_mem_nil, IsEmpty.forall_iff,
    implies_true, and_true] at fields
  obtain ⟨-, -, -, ⟨vgprs, sgprs, -⟩, ⟨-, userSgpr, -, -, -, -, -, -, lds, -⟩, -⟩ := fields
  exact ⟨vgprs, sgprs, userSgpr, lds⟩

theorem vgprs_covers_iff (dispatched : Dispatched regs args.state va) (checked : args.Checked) :
    Covers (4 * ((PgmRsrc1.vgprs.get (regs Reg.computePgmRsrc1.toNat)).toNat + 1))
      (if args.vgprnum = 0 then 256 else args.vgprnum.toInt) 4 ↔ 0 ≤ args.vgprnum.toInt := by
  have most := checked.vgprnum
  have units := @registers_default_iff args.vgprnum 4 PgmRsrc1.vgprs.mask 6 256 (by decide)
    (by decide) (by decide) (show args.vgprnum.toInt ≤ 256 by omega) (by decide) (by decide)
  rw [dispatched.launch_fields.1]
  exact units

theorem sgprs_covers_iff (dispatched : Dispatched regs args.state va) (checked : args.Checked) :
    Covers (8 * ((PgmRsrc1.sgprs.get (regs Reg.computePgmRsrc1.toNat)).toNat + 1))
      (if args.sgprnum = 0 then 104 else args.sgprnum.toInt) 8 ↔ 0 ≤ args.sgprnum.toInt := by
  have most := checked.sgprnum
  have units := @registers_default_iff args.sgprnum 8 PgmRsrc1.sgprs.mask 4 104 (by decide)
    (by decide) (by decide) (show args.sgprnum.toInt ≤ 128 by omega) (by decide) (by decide)
  rw [dispatched.launch_fields.2.1]
  exact units

theorem ldsSize_covers_iff (dispatched : Dispatched regs args.state va) (checked : args.Checked) :
    Covers (256 * (PgmRsrc2.ldsSize.get (regs Reg.computePgmRsrc2.toNat)).toNat)
      args.localMemSize.toInt 256 ↔ -256 < args.localMemSize.toInt := by
  have most := checked.localMemSize
  have units := @lds_covers_iff args.localMemSize 256 PgmRsrc2.ldsSize.mask 9 (by decide)
    (by decide) (by decide) (by decide) (show args.localMemSize.toInt ≤ 130816 by omega)
  rw [dispatched.launch_fields.2.2.2]
  exact units

theorem userSgpr_eq (dispatched : Dispatched regs args.state va) (checked : args.Checked) :
    (PgmRsrc2.userSgpr.get (regs Reg.computePgmRsrc2.toNat)).toNat = args.userData.length := by
  have few := checked.userData
  have ones : PgmRsrc2.userSgpr.mask.toNat = 2 ^ 5 - 1 := by decide
  rw [dispatched.launch_fields.2.2.1, Field.toNat_and_mask ones, checked.userDataLength,
    Nat.mod_eq_of_lt (by omega)]

theorem userData_eq (dispatched : Dispatched regs args.state va) (checked : args.Checked)
    (i : Nat) (inside : i < args.userData.length) :
    regs (Reg.computeUserData0.toNat + 4 * i) = args.userData[i] := by
  have few := checked.userData
  have held := dispatched.userData ⟨i, by omega⟩ (by rwa [checked.userDataLength])
  refine held.trans ?_
  show args.userData.getD i 0 = _
  rw [List.getD_eq_getElem?_getD, List.getElem?_eq_getElem inside, Option.getD_some]

/-- **Exactly when the registers hold what was asked for.** -/
theorem exactLaunch_iff (dispatched : Dispatched regs args.state va) (checked : args.Checked) :
    ExactLaunch regs args ↔ args.Fits := by
  constructor
  · intro exact
    have starts := dispatched.start_supplied_iff.mp exact.start
    constructor
    · exact starts.1
    · exact (dispatched.dim_supplied_iff.mp exact.dim).2
    · exact starts.2
    · exact (dispatched.numThread_supplied_iff.mp exact.numThread).2
    · exact (dispatched.vgprs_covers_iff checked).mp exact.vgprs
    · exact (dispatched.sgprs_covers_iff checked).mp exact.sgprs
    · exact (dispatched.ldsSize_covers_iff checked).mp exact.lds
  · intro fits
    have few : args.blockDim.length ≤ 3 := checked.lengths ▸ checked.few
    constructor
    · exact dispatched.dim_supplied_iff.mpr ⟨few, fits.blockDim⟩
    · exact dispatched.start_supplied_iff.mpr ⟨fits.threadOffset_length, fits.threadOffset⟩
    · exact dispatched.numThread_supplied_iff.mpr ⟨checked.few, fits.localSize⟩
    · exact (dispatched.vgprs_covers_iff checked).mpr fits.vgprnum
    · exact (dispatched.sgprs_covers_iff checked).mpr fits.sgprnum
    · exact (dispatched.ldsSize_covers_iff checked).mpr fits.localMemSize
    · exact dispatched.userSgpr_eq checked
    · exact dispatched.userData_eq checked

end Dispatched

/-- A launch that returned passed its assertions and was accepted by the driver. -/
theorem launch_ok {κ : Type} {drm : CsDrm κ} {h : Heap} {context : Addr} {args : LaunchArgs}
    {w w' : CsWorld κ} (run : launch drm h context args w = .ok w') :
    args.Checked ∧ ∃ crelocs,
      computeEmitComputeStateManualRelocs drm h context args.state crelocs w = .ok (0, w') := by
  obtain ⟨_, passed, run⟩ := bind_eq_ok.mp run
  obtain ⟨crelocs, -, run⟩ := bind_eq_ok.mp run
  obtain ⟨⟨ret, w₁⟩, emission, run⟩ := bind_eq_ok.mp run
  refine ⟨LaunchArgs.checked_of_ok passed, crelocs, ?_⟩
  dsimp only at run
  by_cases refused : ret ≠ 0
  · rw [if_pos refused] at run
    exact nomatch run
  · rw [if_neg refused] at run
    rw [emission, Except.ok.inj run, not_not.mp refused]

/-- **Exactly when a launch that is accepted dispatches what was asked for.** -/
theorem launch_exact_iff {κ : Type} (drm : CsDrm κ) {h : Heap} {context : Addr}
    {args : LaunchArgs} {w w' : CsWorld κ} (run : launch drm h context args w = .ok w') :
    ∃ cs events, w'.submitted = w.submitted ++ [cs] ∧ cpEvents cs.ib = some events ∧
      ∀ regs, ExactLaunch (runEvents events regs) args ↔ args.Fits := by
  obtain ⟨checked, crelocs, emission⟩ := launch_ok run
  obtain ⟨cs, added, emitted⟩ := computeEmit_submitted drm crelocs emission
  have few : args.state.userDataLength.toNat ≤ 16 := by
    rw [checked.userDataLength]
    exact checked.userData
  obtain ⟨buf, emitted', -, events⟩ := computeStateBuf_spec few
    (.ofNat 64 (h.buffer args.state.binary).va)
  obtain rfl : buf = cs.ib := Except.ok.inj (emitted'.symm.trans emitted)
  exact ⟨cs, _, added, events, fun regs =>
    (args.state.launch_dispatched _ regs).exactLaunch_iff checked⟩

/-- A launch of ten groups of 64 threads. -/
def LaunchArgs.groups (threadOffset : List SizeT) : LaunchArgs where
  userData := [4096, 640]
  threadOffset := threadOffset
  blockDim := [10]
  localSize := [64]
  code := ⟨0, 0⟩
  usedMemories := [⟨0, 0⟩]
  vgprnum := 30
  sgprnum := 20

/-- It dispatches what was asked for. -/
theorem launch_exact_groups :
    ∃ w' cs events,
      launch .obliging (.oneBuffer 4096) 0 (.groups [64]) ⟨(), []⟩ = .ok w' ∧
      w'.submitted = [cs] ∧ cpEvents cs.ib = some events ∧
      ∀ regs, ExactLaunch (runEvents events regs) (.groups [64]) := by
  have returns : (launch .obliging (.oneBuffer 4096) 0 (.groups [64]) ⟨(), []⟩).toOption.isSome =
      true := by decide +kernel
  obtain ⟨w', run⟩ := Option.isSome_iff_exists.mp returns
  have run := toOption_eq_some.mp run
  obtain ⟨cs, events, added, executed, exact⟩ := launch_exact_iff .obliging run
  refine ⟨w', cs, events, run, added, executed, fun regs => (exact regs).mpr ?_⟩
  constructor
  · decide
  · intro v member
    rw [List.mem_singleton.mp member]
    decide
  · intro v member
    rw [List.mem_singleton.mp member]
    decide
  · intro v member
    rw [List.mem_singleton.mp member]
    decide
  · decide
  · decide
  · decide

/-- A fourth offset is accepted, and ignored. -/
theorem not_launch_exact_fourOffsets :
    ∃ w' cs events,
      launch .obliging (.oneBuffer 4096) 0 (.groups [0, 0, 0, 64]) ⟨(), []⟩ = .ok w' ∧
      w'.submitted = [cs] ∧ cpEvents cs.ib = some events ∧
      ∀ regs, ¬ ExactLaunch (runEvents events regs) (.groups [0, 0, 0, 64]) := by
  have facts : (launch .obliging (.oneBuffer 4096) 0 (.groups [0, 0, 0, 64]) ⟨(), []⟩).toOption.map
      (fun w' => w'.submitted.map fun cs => (cpEvents cs.ib).isSome) = some [true] := by
    decide +kernel
  obtain ⟨w', run, handed⟩ := Option.map_eq_some_iff.mp facts
  obtain ⟨cs, submitted, executes⟩ := List.map_eq_singleton_iff.mp handed
  obtain ⟨events, executed⟩ := Option.isSome_iff_exists.mp executes
  refine ⟨w', cs, events, toOption_eq_some.mp run, submitted, executed, fun regs exact => ?_⟩
  obtain ⟨d, fourth, -⟩ := exact.start.1 3 (by decide)
  omega

end RadeonsiCompute
