import RadeonsiCompute.Shader.Passes

/-!
# An operation between its loads and its store

`AMDBinaryOperationRunner` of `divide_precision.cpp` puts the dwords of an
operation on two operands between a program that loads them and one that stores
the result. Whatever the operation is, the program reads as the three parts, and
a wave goes straight through them.
-/

namespace RadeonsiCompute

open Lib CodeHelper

/-! ## `mubuf_op` -/

def bufferLoadUbyte : Dword := 8

def bufferLoadUshort : Dword := 10

def bufferLoadDword : Dword := 12

def bufferLoadDwordx2 : Dword := 13

def bufferLoadDwordx4 : Dword := 14

def bufferStoreByte : Dword := 24

def bufferStoreShort : Dword := 26

def bufferStoreDword : Dword := 28

def bufferStoreDwordx2 : Dword := 29

def bufferStoreDwordx4 : Dword := 30

/-- `LoadType` and `StoreType`. For a size of 0 the function says so and goes on with two
variables it has not set. -/
def mubufOps (typeSize : Nat) : Option (Dword × Dword) :=
  if typeSize = 1 then some (bufferLoadUbyte, bufferStoreByte)
  else if typeSize = 2 then some (bufferLoadUshort, bufferStoreShort)
  else if typeSize = 4 then some (bufferLoadDword, bufferStoreDword)
  else if typeSize = 8 then some (bufferLoadDwordx2, bufferStoreDwordx2)
  else if typeSize ≠ 0 then some (bufferLoadDwordx4, bufferStoreDwordx4)
  else none

/-! ## The program -/

/-- The element of the thread, and the two operands in `v2` and `v4`. -/
def operationLoads (loadType : Dword) : List Dword := List.flatten [
  sNop, sNop, sNop, sNop, sNop,
  vMovB32 6 8, vMulI32I24 6 6 255, [256], vAddI32 7 0 (256 + 6),
  mubuf 128 0 0 0 2 7 loadType 0 0 0 1 0 0,
  mubuf 128 0 0 1 4 7 loadType 0 0 0 1 0 0,
  sWaitcnt]

/-- The result in `v4`, in the place of the second operand. -/
def operationStore (storeType : Dword) : List Dword := List.flatten [
  mubuf 128 0 0 1 4 7 storeType 0 0 0 1 0 0, sWaitcnt,
  sNop, sNop, sNop, sNop, sNop, sEndpgm]

def generateTempCode (binary : List Dword) (typeSize : Nat) : Option (List Dword) :=
  (mubufOps typeSize).map fun ops => operationLoads ops.1 ++ binary ++ operationStore ops.2

def operationLoadCalls (loadType : Dword) : List BuilderCall := [
  .sNop, .sNop, .sNop, .sNop, .sNop,
  .vMovB32 6 8, .vMulI32I24Imm32 6 6 256, .vAddI32 7 0 (256 + 6),
  .mubuf 128 0 0 0 2 7 loadType 0 0 0 1 0 0,
  .mubuf 128 0 0 1 4 7 loadType 0 0 0 1 0 0,
  .sWaitcnt]

/-- The store, up to `s_endpgm`. -/
def operationStoreCalls (storeType : Dword) : List BuilderCall := [
  .mubuf 128 0 0 1 4 7 storeType 0 0 0 1 0 0, .sWaitcnt,
  .sNop, .sNop, .sNop, .sNop, .sNop]

/-! ## How it reads -/

/-- The loads and stores there are, by width. -/
def mubufTable : List (Dword × Dword) := [
  (bufferLoadUbyte, bufferStoreByte), (bufferLoadUshort, bufferStoreShort),
  (bufferLoadDword, bufferStoreDword), (bufferLoadDwordx2, bufferStoreDwordx2),
  (bufferLoadDwordx4, bufferStoreDwordx4)]

theorem mubufOps_cases {typeSize : Nat} (sized : typeSize ≠ 0) :
    ∃ ops ∈ mubufTable, mubufOps typeSize = some ops := by
  unfold mubufOps
  split
  · exact ⟨_, by simp [mubufTable], rfl⟩
  · split
    · exact ⟨_, by simp [mubufTable], rfl⟩
    · split
      · exact ⟨_, by simp [mubufTable], rfl⟩
      · split
        · exact ⟨_, by simp [mubufTable], rfl⟩
        · exact ⟨_, by simp [mubufTable], rfl⟩

/-- What is written around an operation is legal. -/
theorem operation_legal : ∀ ops ∈ mubufTable,
    (∀ c ∈ (operationLoadCalls ops.1).map BuilderCall.blank, c.Legal) ∧
      ∀ c ∈ (operationStoreCalls ops.2 ++ [BuilderCall.sEndpgm]).map BuilderCall.blank,
        c.Legal := by
  intro ops listed
  simp only [mubufTable, List.mem_cons, List.not_mem_nil, or_false] at listed
  rcases listed with rfl | rfl | rfl | rfl | rfl
  all_goals exact ⟨by decide, by decide⟩

/-- And it goes straight on. -/
theorem operation_plain : ∀ ops ∈ mubufTable,
    (∀ i ∈ (operationLoadCalls ops.1).map BuilderCall.instr, avoids [] i = true) ∧
      ∀ i ∈ (operationStoreCalls ops.2).map BuilderCall.instr, avoids [] i = true := by
  intro ops listed
  simp only [mubufTable, List.mem_cons, List.not_mem_nil, or_false] at listed
  rcases listed with rfl | rfl | rfl | rfl | rfl
  all_goals exact ⟨List.all_eq_true.mp rfl, List.all_eq_true.mp rfl⟩

variable {ops : Dword × Dword} {operation : List (Instr SqFormat 32)}

/-- What a wave executes, up to `s_endpgm`. -/
def operationTrace (ops : Dword × Dword) (operation : List (Instr SqFormat 32)) :
    List (Instr SqFormat 32) :=
  (operationLoadCalls ops.1).map BuilderCall.instr ++ operation ++
    (operationStoreCalls ops.2).map BuilderCall.instr

theorem lists_operation (listed : ops ∈ mubufTable) (legal : ∀ i ∈ operation, si.Legal i) :
    si.Lists (operationLoads ops.1 ++ operation.flatMap si.encode ++ operationStore ops.2)
      (operationTrace ops operation ++ [BuilderCall.sEndpgm.instr]) := by
  obtain ⟨loads, store⟩ := operation_legal ops listed
  have first : si.Lists (operationLoads ops.1)
      ((operationLoadCalls ops.1).map BuilderCall.instr) := lists_calls _ _ rfl loads
  have second : si.Lists (operation.flatMap si.encode) operation := ⟨legal, rfl⟩
  have third : si.Lists (operationStore ops.2)
      ((operationStoreCalls ops.2).map BuilderCall.instr ++ [BuilderCall.sEndpgm.instr]) :=
    lists_calls (operationStoreCalls ops.2 ++ [BuilderCall.sEndpgm]) _ rfl store
  have whole := (first.append second).append third
  rw [← List.append_assoc] at whole
  exact whole

/-- A wave goes through the parts and stops. -/
theorem spells_operation {ν : Type} {hw : Hardware ν} {words : List Dword}
    (listed : ops ∈ mubufTable) (lists : si.Lists words (operationTrace ops operation ++
      [BuilderCall.sEndpgm.instr])) (plain : ∀ i ∈ operation, avoids [] i = true) :
    (waveSystem hw words).Spells (fun w => w.pc = 0) {operationTrace ops operation}
      fun w => ∃ next, fetch words w.pc = some (BuilderCall.sEndpgm.instr, next) := by
  obtain ⟨loads, store⟩ := operation_plain ops listed
  have layout : words = [] ++ ((operationTrace ops operation).flatMap si.encode ++
      (si.encode BuilderCall.sEndpgm.instr ++ [])) := by
    rw [lists.encoded, List.flatMap_append, List.flatMap_singleton, List.append_nil,
      List.nil_append]
  have legal := lists.legal
  rw [List.forall_mem_append, List.forall_mem_singleton] at legal
  have straight : ∀ i ∈ operationTrace ops operation, avoids [] i = true := by
    simp only [operationTrace, List.forall_mem_append]
    exact ⟨⟨loads, plain⟩, store⟩
  have ran := @spells_straight ν hw words [] _ _ legal.1 straight [] layout
  rw [← List.append_assoc] at layout
  have stop := fetch_encode legal.2 layout
  rw [List.length_append] at stop
  refine ran.mono (fun w here => ⟨here, fun p none => absurd none List.not_mem_nil⟩)
    fun w here => ?_
  rw [here.1]
  exact ⟨_, stop⟩

/-- **Any operation runs between its loads and its store.** Whatever legal instructions are put
there for operands of whatever size but 0, the program reads as the loads that `mubufOps` picks for
the size (of four dwords for every size that is not 1, 2, 4 or 8), these instructions and the store
that goes with the loads, and fits the block of code if the operation has at most 1001 dwords. If
the instructions go straight on, every wave executes all of it once and in order, and stops. These
are, of VOP1, VOP2, VOPC, MUBUF and MTBUF, all but the two reads of a lane into a scalar register;
of VOP3, `V_MAD_LEGACY_F32` to `V_MUL_HI_I32`, so not a VOP2 in the long encoding, nor the
`V_DIV_SCALE`s and `V_DIV_FMAS`s behind; and `s_nop`, `s_waitcnt`, `s_mov_b32` of a literal,
`s_load_dword`, `s_memtime` and `s_getreg_b32`. -/
theorem generateTempCode_runs {ν : Type} (hw : Hardware ν) {typeSize : Nat}
    (sized : typeSize ≠ 0) (legal : ∀ i ∈ operation, si.Legal i) : ∃ ops code,
      mubufOps typeSize = some ops ∧
      generateTempCode (operation.flatMap si.encode) typeSize = some code ∧
      si.decode code = some (operationTrace ops operation ++ [BuilderCall.sEndpgm.instr]) ∧
      (code.length ≤ 1024 ↔ (operation.flatMap si.encode).length ≤ 1001) ∧
      ((∀ i ∈ operation, avoids [] i = true) → ∀ w : Wave ν, w.pc = 0 →
        (∃ w', (waveSystem hw code).Run w (operationTrace ops operation) w') ∧
        ∀ is w', (waveSystem hw code).Run w is w' → is <+: operationTrace ops operation ∧
          (is ≠ operationTrace ops operation ∧ (∃ i w'', (waveSystem hw code).step w' i w'') ∨
            is = operationTrace ops operation ∧
              ∃ next, fetch code w'.pc = some (BuilderCall.sEndpgm.instr, next))) := by
  obtain ⟨ops, listed, chosen⟩ := mubufOps_cases sized
  have lists := lists_operation listed legal
  refine ⟨ops, _, chosen, by rw [generateTempCode, chosen]; rfl, lists.decode, ?_, ?_⟩
  · have loads : (operationLoads ops.1).length = 14 := rfl
    have store : (operationStore ops.2).length = 9 := rfl
    rw [List.length_append, List.length_append, loads, store]
    omega
  · intro plain w start
    have spelt := @spells_operation ops operation ν hw _ listed lists plain
    exact spelt.of_word (fun _ _ _ stop => not_step_of_sEndpgm stop) start

/-- The division in double precision: one reciprocal and one step of improvement. -/
def divideF64 : List (Instr SqFormat 32) := [
  BuilderCall.instr (.vRcpF64 4 (256 + 2)),
  BuilderCall.instr (.vop3a 10 0 0 332 (256 + 2) (256 + 4) 245 0 0),
  BuilderCall.instr (.vop3a 4 0 0 357 (256 + 4) (256 + 10) 0 0 1)]

/-- It runs on operands of 8 bytes. -/
theorem generateTempCode_runs_divideF64 : ∃ code w',
    generateTempCode (divideF64.flatMap si.encode) 8 = some code ∧ code.length = 28 ∧
    (waveSystem idleHardware code).Run ⟨0, fun _ => 0, false, ()⟩
      (operationTrace (bufferLoadDwordx2, bufferStoreDwordx2) divideF64) w' := by
  have legal : ∀ i ∈ divideF64, si.Legal i := by
    simp only [divideF64, List.forall_mem_cons]
    refine ⟨BuilderCall.Legal.instr ?_, BuilderCall.Legal.instr ?_, BuilderCall.Legal.instr ?_,
      by simp⟩
    · decide
    · decide
    · decide
  have plain : ∀ i ∈ divideF64, avoids [] i = true := List.all_eq_true.mp rfl
  obtain ⟨ops, code, chosen, written, -, -, runs⟩ :=
    generateTempCode_runs idleHardware (show 8 ≠ 0 by decide) legal
  obtain rfl : (bufferLoadDwordx2, bufferStoreDwordx2) = ops := Option.some.inj chosen
  obtain ⟨⟨w', run⟩, -⟩ := runs plain ⟨0, fun _ => 0, false, ()⟩ rfl
  refine ⟨code, w', written, ?_, run⟩
  rw [← Option.some.inj written]
  rfl

end RadeonsiCompute
