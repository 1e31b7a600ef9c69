import RadeonsiCompute.Shader.Passes

/-!
# How often the Mandelbrot kernel iterates

The loop is left when no thread of the wave is on any more, or when the scalar
count is above its bound, which bounds the iterations of every wave. On the way
the compares turn threads off; the mask that the wave came with is put aside
before the loop and put back behind it.
-/

namespace RadeonsiCompute

open Lib CodeHelper

variable {ν : Type} {hw : Hardware ν} {words : List Dword}

/-- The rule for a move of two registers. -/
theorem spells_sMovB64 {d s a b : Dword} {k next : Nat} (low : s.toNat < 127)
    (fetched : fetch words k = some (BuilderCall.instr (.sMovB64 d s), next)) :
    (waveSystem hw words).Spells (Wave.At k [(s.toNat, a), (s.toNat + 1, b)])
      {[BuilderCall.instr (.sMovB64 d s)]}
      (Wave.At next [(d.toNat, a), (d.toNat + 1, b)]) := by
  refine spells_scalar fetched rfl (fun w here => here.1) fun w here => ?_
  obtain ⟨lower, upper, -⟩ := List.forall_mem_cons.mp here.2 |>.imp id List.forall_mem_cons.mp
  have wide : SqOp.sMovB64 = SqOp.sMovB64 ∧ s.toNat < 127 := ⟨rfl, low⟩
  refine ⟨_, if_pos wide, rfl, ?_⟩
  simp only [List.forall_mem_cons]
  refine ⟨?_, ?_, by simp⟩
  · show Function.update (Function.update w.sgpr d.toNat _) (d.toNat + 1) _ d.toNat = a
    rw [Function.update_of_ne (Nat.ne_of_lt (Nat.lt_succ_self _)), Function.update_self]
    exact lower
  · exact (Function.update_self _ _ _).trans upper

namespace Mandelbrot

variable (image : MandelbrotArgs)

/-- Up to where the mask is put aside. -/
def beforeInstrs : List (Instr SqFormat 32) :=
  ((mandelbrotSetupCalls image).take 20).map BuilderCall.instr

/-- Behind where the counter is cleared. -/
def afterInstrs : List (Instr SqFormat 32) :=
  ((mandelbrotSetupCalls image).drop 22).map BuilderCall.instr

def saveInstr : Instr SqFormat 32 := BuilderCall.instr (.sMovB64 12 126)

def clearInstr : Instr SqFormat 32 := BuilderCall.instr (.sMovImm32 8 0)

def restoreInstr : Instr SqFormat 32 := BuilderCall.instr (.sMovB64 126 12)

/-- What counts an iteration for the scalar unit. -/
def countInstr : Instr SqFormat 32 := BuilderCall.instr (.sAddI32 8 8 129)

/-- An iteration behind the counts, up to the test that the loop is left by. -/
def iterInstrs : List (Instr SqFormat 32) :=
  (mandelbrotBodyCalls.drop 2).map BuilderCall.instr ++ mandelbrotTestInstrs.take 1

/-- From the start of an iteration to the branch that leaves the loop. -/
def testInstrs : List (Instr SqFormat 32) :=
  [Generator.mandelbrot.unit] ++ [countInstr] ++ iterInstrs ++
    [branchInstr SqOp.sCbranchExecz 3]

/-- The compare with the bound, and the branch back. -/
def boundInstrs (imm : BitVec 16) : List (Instr SqFormat 32) :=
  mandelbrotTestInstrs.drop 2 ++ [branchInstr SqOp.sCbranchScc0 imm]

/-- Behind where the mask is put back, up to `s_endpgm`. -/
def colourInstrs : List (Instr SqFormat 32) :=
  (mandelbrotRestCalls image).dropLast.tail.map BuilderCall.instr

theorem rest_eq (args : KernelArgs) : Generator.mandelbrot.restInstrs args =
    restoreInstr :: (colourInstrs args.image ++ [BuilderCall.sEndpgm.instr]) := rfl

theorem loop_eq : Generator.mandelbrot.loopInstrs 0 =
    testInstrs ++ mandelbrotTestInstrs.drop 2 := rfl

variable {image} {a b c : Dword} {pre post : List Dword}

/-- The mask is put aside and the counter cleared. -/
theorem spells_setup (legal : ∀ i ∈ beforeInstrs image ++ saveInstr :: clearInstr ::
      afterInstrs image, si.Legal i)
    (layout : words = (beforeInstrs image ++ saveInstr :: clearInstr ::
      afterInstrs image).flatMap si.encode ++ post) :
    (waveSystem hw words).Spells (Wave.At 0 [(126, a), (127, b)])
      {beforeInstrs image ++ saveInstr :: clearInstr :: afterInstrs image}
      (Wave.At ((beforeInstrs image ++ saveInstr :: clearInstr ::
        afterInstrs image).flatMap si.encode).length [(8, 0), (12, a), (13, b)]) := by
  simp only [List.forall_mem_append, List.forall_mem_cons] at legal
  obtain ⟨legal, legalSave, legalClear, legalAfter⟩ := legal
  simp only [List.flatMap_append, List.flatMap_cons, List.append_assoc] at layout
  have plain : ∀ i ∈ beforeInstrs image, avoids [126, 127] i = true :=
    List.all_eq_true.mp rfl
  have plainAfter : ∀ i ∈ afterInstrs image, avoids [8, 12, 13] i = true :=
    List.all_eq_true.mp rfl
  have first := @spells_straight ν hw words [(126, a), (127, b)] _ _ legal plain [] layout
  have second := @spells_sMovB64 ν hw words 12 126 a b _ _ (by decide)
    (fetch_encode legalSave layout)
  rw [← List.append_assoc] at layout
  have third := @spells_sets ν hw words _ _ _ [(12, a), (13, b)] 8 0
    (fetch_encode legalClear layout) rfl fun w _ => ⟨_, rfl⟩
  rw [← List.append_assoc] at layout
  have fourth := @spells_straight ν hw words [(8, 0), (12, a), (13, b)] _ _ legalAfter plainAfter
    _ layout
  simp only [List.length_append, List.length_nil, Nat.zero_add] at first second third fourth
  have whole := first.words (second.words (third.words fourth))
  simp only [List.flatMap_append, List.flatMap_cons, List.length_append, ← Nat.add_assoc]
  exact whole

/-- An iteration up to the branch that leaves the loop. -/
theorem spells_test (legal : ∀ i ∈ testInstrs, si.Legal i)
    (layout : words = pre ++ (testInstrs.flatMap si.encode ++ post)) :
    (waveSystem hw words).Spells (Wave.At pre.length [(8, c), (12, a), (13, b)]) {testInstrs}
      fun w => w.At (pre.length + (testInstrs.flatMap si.encode).length + 3) [(12, a), (13, b)] ∨
        w.At (pre.length + (testInstrs.flatMap si.encode).length)
          [(8, 1 + c), (12, a), (13, b)] := by
  simp only [testInstrs, List.forall_mem_append, List.forall_mem_singleton] at legal
  obtain ⟨⟨⟨legalUnit, legalCount⟩, legalIter⟩, legalBranch⟩ := legal
  simp only [testInstrs, List.flatMap_append, List.flatMap_singleton, List.append_assoc] at layout
  have plain : ∀ i ∈ iterInstrs, avoids [8, 12, 13] i = true := by decide
  have first := @spells_avoids ν hw words _ _ _ [(8, c), (12, a), (13, b)]
    (fetch_encode legalUnit layout) rfl
  rw [← List.append_assoc] at layout
  have second := @spells_sets ν hw words _ _ _ [(8, c), (12, a), (13, b)] 8 (1 + c)
    (fetch_encode legalCount layout) rfl fun w known => by
      have here : w.sgpr 8 = c := known _ List.mem_cons_self
      rw [← here]
      exact ⟨_, rfl⟩
  rw [← List.append_assoc] at layout
  have third := @spells_straight ν hw words [(8, 1 + c), (12, a), (13, b)] _ _ legalIter plain _
    layout
  rw [← List.append_assoc] at layout
  have fourth := @spells_cbranchExecz ν hw words _ _ [(8, 1 + c), (12, a), (13, b)] 3 _
    (fetch_encode legalBranch layout) rfl
  simp only [List.length_append] at first second third fourth
  have whole := first.words (second.words (third.words fourth))
  simp only [testInstrs, List.flatMap_append, List.flatMap_singleton, List.length_append,
    List.append_assoc, ← Nat.add_assoc]
  refine whole.mono (fun _ => id) fun w here => ?_
  rcases here with ⟨left, known⟩ | stays
  · refine .inl ⟨left, fun p member => known p ?_⟩
    exact List.mem_cons_of_mem _ member
  · exact .inr stays

/-- The compare with the bound and the branch back. -/
theorem spells_bound {imm : BitVec 16} {target : Nat}
    (legal : ∀ i ∈ boundInstrs imm, si.Legal i)
    (layout : words = pre ++ ((boundInstrs imm).flatMap si.encode ++ post))
    (back : (pre.length + 3 : Int) + imm.toInt = target) :
    (waveSystem hw words).Spells (Wave.At pre.length [(8, c), (12, a), (13, b)])
      {boundInstrs imm}
      (Wave.At (if (BitVec.ofNat 32 1279).slt c then pre.length + 3 else target)
        [(8, c), (12, a), (13, b)]) := by
  have bound : boundInstrs imm = [⟨.sopc, SqOp.sCmpLtI32, [8, 255], [], some 0x4FF⟩] ++
    [branchInstr SqOp.sCbranchScc0 imm] := rfl
  rw [bound] at legal layout ⊢
  simp only [List.forall_mem_append, List.forall_mem_singleton] at legal
  simp only [List.flatMap_append, List.flatMap_singleton, List.append_assoc] at layout
  have first := @spells_compare ν hw words _ _ _ [(8, c), (12, a), (13, b)]
    ((BitVec.ofNat 32 1279).slt c) (fetch_encode legal.1 layout) rfl fun w known => by
      have here : w.sgpr 8 = c := known _ List.mem_cons_self
      rw [← here]
      rfl
  rw [← List.append_assoc] at layout
  have fetched := fetch_encode legal.2 layout
  rw [List.length_append] at fetched
  exact first.words (spells_cbranchScc0 fetched back)

/-- The whole loop, left by the one branch or the other. -/
theorem spells_loop {imm : BitVec 16} (legal : ∀ i ∈ testInstrs, si.Legal i)
    (legalBound : ∀ i ∈ boundInstrs imm, si.Legal i)
    (layout : words = pre ++ (testInstrs.flatMap si.encode ++
      ((boundInstrs imm).flatMap si.encode ++ post)))
    (back : (pre.length + (testInstrs.flatMap si.encode).length + 3 : Int) + imm.toInt =
      pre.length) :
    (waveSystem hw words).Spells (Wave.At pre.length [(8, 0), (12, a), (13, b)])
      (Lib.TSys.Spells.passes testInstrs (boundInstrs imm) 1280)
      (Wave.At (pre.length + (testInstrs.flatMap si.encode).length + 3) [(12, a), (13, b)]) := by
  -- where a wave is after `k` iterations
  let P : Nat → Wave ν → Prop := fun k => Wave.At
    (if k = 1280 then pre.length + (testInstrs.flatMap si.encode).length + 3 else pre.length)
    [(8, BitVec.ofNat 32 k), (12, a), (13, b)]
  let Mid : Nat → Wave ν → Prop := fun k => Wave.At
    (pre.length + (testInstrs.flatMap si.encode).length)
    [(8, BitVec.ofNat 32 (k + 1)), (12, a), (13, b)]
  have tests : ∀ k < 1280, (waveSystem hw words).Spells (P k) {testInstrs} fun w =>
      w.At (pre.length + (testInstrs.flatMap si.encode).length + 3) [(12, a), (13, b)] ∨
        Mid k w := by
    intro k below
    have spelt := @spells_test ν hw words a b (.ofNat 32 k) pre _ legal layout
    rw [Generator.one_add_ofNat] at spelt
    refine spelt.mono (fun w here => ?_) fun _ => id
    simpa only [P, if_neg (Nat.ne_of_lt below)] using here
  have returns : ∀ k < 1280, (waveSystem hw words).Spells (Mid k) {boundInstrs imm}
      (P (k + 1)) := by
    intro k below
    have cut := layout
    rw [← List.append_assoc] at cut
    have spelt := @spells_bound ν hw words a b (.ofNat 32 (k + 1)) _ _ imm pre.length legalBound
      cut (by rw [List.length_append]; exact back)
    rw [← Generator.one_add_ofNat, Generator.slt_count (by decide) (Nat.le_of_lt_succ below),
      Generator.one_add_ofNat, List.length_append] at spelt
    simp only [decide_eq_true_eq] at spelt
    simpa only [P, Nat.succ_inj] using spelt
  have ended : ∀ w, P 1280 w →
      w.At (pre.length + (testInstrs.flatMap si.encode).length + 3) [(12, a), (13, b)] := by
    rintro w ⟨here, known⟩
    rw [if_pos rfl] at here
    exact ⟨here, fun p member => known p (List.mem_cons_of_mem _ member)⟩
  exact Lib.TSys.Spells.loop tests returns ended 1280 0 (Nat.zero_add _)

/-- The mask is put back. -/
theorem spells_rest (legal : ∀ i ∈ restoreInstr :: colourInstrs image, si.Legal i)
    (layout : words = pre ++ ((restoreInstr :: colourInstrs image).flatMap si.encode ++ post)) :
    (waveSystem hw words).Spells (Wave.At pre.length [(12, a), (13, b)])
      {restoreInstr :: colourInstrs image}
      (Wave.At (pre.length + ((restoreInstr :: colourInstrs image).flatMap si.encode).length)
        [(126, a), (127, b)]) := by
  rw [List.forall_mem_cons] at legal
  rw [List.flatMap_cons, List.append_assoc] at layout
  have plain : ∀ i ∈ colourInstrs image, avoids [126, 127] i = true :=
    List.all_eq_true.mp rfl
  have first := @spells_sMovB64 ν hw words 126 12 a b _ _ (by decide)
    (fetch_encode legal.1 layout)
  rw [← List.append_assoc] at layout
  have second := @spells_straight ν hw words [(126, a), (127, b)] _ _ legal.2 plain _ layout
  rw [List.length_append] at second
  rw [List.flatMap_cons, List.length_append, ← Nat.add_assoc]
  exact first.words second

/-- The program is laid out in these parts, and the branch back leads to the loop. -/
theorem parts (args : KernelArgs) : ∃ imm,
    (∀ i ∈ Generator.mandelbrot.setupInstrs args, si.Legal i) ∧ (∀ i ∈ testInstrs, si.Legal i) ∧
    (∀ i ∈ boundInstrs imm, si.Legal i) ∧
    (∀ i ∈ restoreInstr :: colourInstrs args.image, si.Legal i) ∧
    (mandelbrotProgram args.image).words =
      (Generator.mandelbrot.setupInstrs args).flatMap si.encode ++
        (testInstrs.flatMap si.encode ++ ((boundInstrs imm).flatMap si.encode ++
          ((restoreInstr :: colourInstrs args.image).flatMap si.encode ++
            (si.encode BuilderCall.sEndpgm.instr ++ [])))) ∧
    (((Generator.mandelbrot.setupInstrs args).flatMap si.encode).length +
      (testInstrs.flatMap si.encode).length + 3 : Int) + imm.toInt =
        ((Generator.mandelbrot.setupInstrs args).flatMap si.encode).length := by
  obtain ⟨imm, reads⟩ := Generator.mandelbrot.readsAs args 0
  have legal := reads.lists.legal
  have short : (Generator.mandelbrot.program args 0).edge -
      (Generator.mandelbrot.program args 0).body < 32768 := by
    rw [Generator.program, mandelbrotProgram, LoopProgram.length_close]
    exact Nat.le_of_ble_eq_true rfl
  have back := Generator.leads short reads
  have whole : Generator.mandelbrot.setupInstrs args ++ (Generator.mandelbrot.loopInstrs 0 ++
      branchInstr SqOp.sCbranchScc0 imm :: Generator.mandelbrot.restInstrs args) =
        Generator.mandelbrot.setupInstrs args ++ (testInstrs ++ (boundInstrs imm ++
          (restoreInstr :: colourInstrs args.image ++ [BuilderCall.sEndpgm.instr]))) := by
    rw [rest_eq, loop_eq]
    rfl
  rw [whole] at legal
  simp only [List.forall_mem_append] at legal
  refine ⟨imm, legal.1, legal.2.1, legal.2.2.1, legal.2.2.2.1, ?_, ?_⟩
  · have words := reads.lists.encoded
    rw [whole] at words
    simp only [List.flatMap_append, List.flatMap_singleton, List.append_nil] at words ⊢
    exact words
  · rw [← reads.edge, ← reads.body, loop_eq, List.flatMap_append, List.length_append] at back
    have two : ((mandelbrotTestInstrs.drop 2).flatMap si.encode).length = 2 := rfl
    rw [two, if_neg (by decide)] at back
    omega

theorem count_passes {imm : BitVec 16} {word : List (Instr SqFormat 32)}
    (member : word ∈ Lib.TSys.Spells.passes testInstrs (boundInstrs imm) 1280) :
    1 ≤ word.count Generator.mandelbrot.unit ∧ word.count Generator.mandelbrot.unit ≤ 1280 := by
  have pass : (testInstrs ++ boundInstrs imm).count Generator.mandelbrot.unit = 1 := rfl
  have test : testInstrs.count Generator.mandelbrot.unit = 1 := rfl
  rcases Lib.TSys.Spells.mem_passes member with ⟨k, below, rfl⟩ | rfl
  · rw [List.count_append, Generator.count_replicate, pass, test]
    omega
  · rw [Generator.count_replicate, pass]
    omega

/-- What a wave executes in the kernel. -/
def traces (args : KernelArgs) (imm : BitVec 16) : Language (Instr SqFormat 32) :=
  {Generator.mandelbrot.setupInstrs args} *
    Lib.TSys.Spells.passes testInstrs (boundInstrs imm) 1280 *
    {restoreInstr :: colourInstrs args.image}

/-- From the first instruction to the last. -/
theorem spells_traces (args : KernelArgs) (a b : Dword) : ∃ imm,
    (waveSystem hw (mandelbrotProgram args.image).words).Spells
      (Wave.At 0 [(126, a), (127, b)]) (traces args imm)
      fun w => (∃ next, fetch (mandelbrotProgram args.image).words w.pc =
        some (BuilderCall.sEndpgm.instr, next)) ∧ w.sgpr 126 = a ∧ w.sgpr 127 = b := by
  obtain ⟨imm, legalSetup, legalTest, legalBound, legalRest, layout, back⟩ := parts args
  refine ⟨imm, ?_⟩
  have legalEnd : si.Legal BuilderCall.sEndpgm.instr := lists_sEndpgm.legal _ List.mem_cons_self
  generalize (mandelbrotProgram args.image).words = words at layout ⊢
  have first := @spells_setup ν hw words args.image a b _ legalSetup layout
  have second := @spells_loop ν hw words a b _ _ imm legalTest legalBound layout back
  have third := @spells_rest ν hw words args.image a b
    ((Generator.mandelbrot.setupInstrs args).flatMap si.encode ++
      (testInstrs.flatMap si.encode ++ (boundInstrs imm).flatMap si.encode))
    (si.encode BuilderCall.sEndpgm.instr ++ []) legalRest
    (by rw [layout]; simp only [List.append_assoc])
  have stop := @fetch_encode words _ ((Generator.mandelbrot.setupInstrs args).flatMap si.encode ++
    (testInstrs.flatMap si.encode ++ (boundInstrs imm).flatMap si.encode) ++
      (restoreInstr :: colourInstrs args.image).flatMap si.encode) [] legalEnd
    (by rw [layout]; simp only [List.append_assoc])
  have three : ((boundInstrs imm).flatMap si.encode).length = 3 := rfl
  simp only [List.length_append, three, ← Nat.add_assoc] at third stop
  refine ((first.append second).append third).mono (fun _ => id) fun w here => ⟨?_, ?_, ?_⟩
  · rw [here.1]
    exact ⟨_, stop⟩
  · exact here.2 (126, a) (by simp)
  · exact here.2 (127, b) (by simp)

theorem of_mem_traces {args : KernelArgs} {imm : BitVec 16} {word : List (Instr SqFormat 32)}
    (member : word ∈ traces args imm) : ∃ middle,
      word = Generator.mandelbrot.setupInstrs args ++ middle ++
        (restoreInstr :: colourInstrs args.image) ∧
      middle ∈ Lib.TSys.Spells.passes testInstrs (boundInstrs imm) 1280 := by
  obtain ⟨_, front, _, rfl, rfl⟩ := Language.mem_mul.mp member
  obtain ⟨_, rfl, middle, inside, rfl⟩ := Language.mem_mul.mp front
  exact ⟨middle, rfl, inside⟩

theorem count_traces {args : KernelArgs} {imm : BitVec 16} {word : List (Instr SqFormat 32)}
    (member : word ∈ traces args imm) :
    1 ≤ word.count Generator.mandelbrot.unit ∧ word.count Generator.mandelbrot.unit ≤ 1280 := by
  obtain ⟨middle, rfl, inside⟩ := of_mem_traces member
  have setup : (Generator.mandelbrot.setupInstrs args).count Generator.mandelbrot.unit = 0 := rfl
  have rest : (restoreInstr :: colourInstrs args.image).count Generator.mandelbrot.unit = 0 := rfl
  rw [List.count_append, List.count_append, setup, rest, Nat.zero_add, Nat.add_zero]
  exact count_passes inside

/-- 26 instructions up to the loop, 17 in each pass and 35 behind it. -/
theorem length_traces {args : KernelArgs} {imm : BitVec 16} {word : List (Instr SqFormat 32)}
    (member : word ∈ traces args imm) : word.length ≤ 26 + 1280 * 17 + 35 := by
  obtain ⟨middle, rfl, inside⟩ := of_mem_traces member
  have setup : (Generator.mandelbrot.setupInstrs args).length = 26 := rfl
  have pass : (testInstrs ++ boundInstrs imm).length = 17 := rfl
  have rest : (restoreInstr :: colourInstrs args.image).length = 35 := rfl
  have bound := Lib.TSys.Spells.length_le_of_mem_passes inside
  rw [pass] at bound
  rw [List.length_append, List.length_append, setup, rest]
  omega

end Mandelbrot

/-- **The iterations of a wave.** Whatever the vector unit and the memory do, a wave of the
Mandelbrot kernel goes on until it stands at `s_endpgm`, with the mask it came with, and has
gone through the loop at least once and at most 1280 times. No run of it is longer than 21821
instructions. -/
theorem mandelbrot_iterates (hw : Hardware ν) (image : MandelbrotArgs) {w : Wave ν}
    (start : w.pc = 0) :
    (∃ is w' next, (waveSystem hw (mandelbrotProgram image).words).Run w is w' ∧
      fetch (mandelbrotProgram image).words w'.pc = some (BuilderCall.sEndpgm.instr, next)) ∧
    ∀ is w', (waveSystem hw (mandelbrotProgram image).words).Run w is w' →
      is.length ≤ 21821 ∧ is.count Generator.mandelbrot.unit ≤ 1280 ∧
      ((∃ i w'', (waveSystem hw (mandelbrotProgram image).words).step w' i w'') ∨
        1 ≤ is.count Generator.mandelbrot.unit ∧
        (∃ next, fetch (mandelbrotProgram image).words w'.pc =
          some (BuilderCall.sEndpgm.instr, next)) ∧
        w'.sgpr 126 = w.sgpr 126 ∧ w'.sgpr 127 = w.sgpr 127) := by
  obtain ⟨imm, spelt⟩ := @Mandelbrot.spells_traces ν hw ⟨0, 0, 0, image⟩ (w.sgpr 126) (w.sgpr 127)
  have here : w.At 0 [(126, w.sgpr 126), (127, w.sgpr 127)] := ⟨start, by simp⟩
  constructor
  · obtain ⟨is, -, w', run, ⟨next, stop⟩, -⟩ :=
      spelt.completes (fun _ => Mandelbrot.length_traces) here
    exact ⟨is, w', next, run, stop⟩
  · intro is w' run
    obtain ⟨word, member, part, rest⟩ :=
      spelt.exact (fun _ _ _ last => not_step_of_sEndpgm last.1) here run
    obtain ⟨some, most⟩ := Mandelbrot.count_traces member
    refine ⟨Nat.le_trans part.length_le (Mandelbrot.length_traces member), ?_⟩
    refine ⟨Nat.le_trans (part.sublist.count_le _) most, ?_⟩
    rcases rest with ⟨-, step⟩ | ⟨rfl, stop, mask⟩
    · exact .inl step
    · exact .inr ⟨some, stop, mask⟩

/-- A wave with all its threads on, and a vector unit that turns none of them off. -/
theorem mandelbrot_iterates_idle : ∃ is w',
    (waveSystem idleHardware (mandelbrotProgram ⟨256, 0, 0, 0, 0, 0, 0, 0, 0, 0, 0⟩).words).Run
      ⟨0, fun _ => 0xFFFFFFFF, false, ()⟩ is w' ∧
    1 ≤ is.count Generator.mandelbrot.unit ∧ is.count Generator.mandelbrot.unit ≤ 1280 ∧
    w'.sgpr 126 = 0xFFFFFFFF := by
  obtain ⟨⟨is, w', next, run, stop⟩, each⟩ := @mandelbrot_iterates Unit idleHardware
    ⟨256, 0, 0, 0, 0, 0, 0, 0, 0, 0, 0⟩ ⟨0, fun _ => 0xFFFFFFFF, false, ()⟩ rfl
  obtain ⟨-, most, rest⟩ := each is w' run
  rcases rest with ⟨i, w'', step⟩ | ⟨some, -, mask, -⟩
  · exact absurd step (not_step_of_sEndpgm ⟨next, stop⟩)
  · exact ⟨is, w', run, some, most, mask⟩

end RadeonsiCompute
