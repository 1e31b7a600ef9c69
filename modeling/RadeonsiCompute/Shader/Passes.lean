import RadeonsiCompute.Shader.Wave

/-!
# How often the loops are passed

Every wave that runs one of the programs comes to its end, whatever the vector
unit and the memory do, and what it executes on the way is known instruction by
instruction. The counted loops are passed once more than the programs divide
their times by, since the branch back is taken as long as the counter is not
above the count; the arithmetic kernels miss one of their instructions in every
pass after the first.
-/

namespace RadeonsiCompute

open Lib CodeHelper

variable {ν : Type} {hw : Hardware ν} {words : List Dword}

/-! ## The test of a counted loop -/

section Test

variable {pre post : List Dword} {n c : Dword} {imm : BitVec 16} {target : Nat}

/-- The count goes up by one, and the branch back is taken unless it is above `n` then. -/
theorem spells_loopTest
    (layout : words = pre ++ ((loopTestInstrs n ++
      [branchInstr SqOp.sCbranchScc0 imm]).flatMap si.encode ++ post))
    (back : (pre.length + 5 : Int) + imm.toInt = target) :
    (waveSystem hw words).Spells (Wave.At pre.length [(8, c)])
      {loopTestInstrs n ++ [branchInstr SqOp.sCbranchScc0 imm]}
      (Wave.At (if n.slt (1 + c) then pre.length + 5 else target) [(8, 1 + c)]) := by
  have legal := (lists_loopTest n).legal
  have branch := (@lists_branch SqOp.sCbranchScc0 (by decide) imm).legal _ List.mem_cons_self
  rw [loopTestInstrs, List.forall_mem_cons, List.forall_mem_cons] at legal
  obtain ⟨add, compare, -⟩ := legal
  have first := @fetch_listed words _ pre post [] _ add layout
  have second := @fetch_listed words _ pre post [_] _ compare layout
  have third := @fetch_listed words _ pre post [_, _] _ branch layout
  -- two dwords, two dwords and one
  change fetch words pre.length = some (_, pre.length + 2) at first
  change fetch words (pre.length + 2) = some (_, pre.length + 4) at second
  change fetch words (pre.length + 4) = some (_, pre.length + 5) at third
  have counted := @spells_sets ν hw words _ _ _ [(8, c)] 8 (1 + c) first rfl fun w known => by
    have here : w.sgpr 8 = c := known _ List.mem_cons_self
    rw [← here]
    exact ⟨_, rfl⟩
  have compared := @spells_compare ν hw words _ _ _ [(8, 1 + c)] (n.slt (1 + c)) second rfl
    fun w known => by
      have here : w.sgpr 8 = 1 + c := known _ List.mem_cons_self
      rw [← here]
      rfl
  have branched := @spells_cbranchScc0 ν hw words _ _ [(8, 1 + c)] _ target (n.slt (1 + c)) third
    back
  exact (counted.words compared).words branched

/-- A pass through a loop: its work, the test and the branch back. -/
theorem spells_pass {work : List (Instr SqFormat 32)} {edge : Nat}
    (legal : ∀ i ∈ work, si.Legal i) (plain : ∀ i ∈ work, avoids [8] i = true)
    (layout : words = pre ++ (work.flatMap si.encode ++ ((loopTestInstrs n ++
      [branchInstr SqOp.sCbranchScc0 imm]).flatMap si.encode ++ post)))
    (stands : pre.length + (work.flatMap si.encode).length + 4 = edge)
    (back : (edge + 1 : Int) + imm.toInt = target) :
    (waveSystem hw words).Spells (Wave.At pre.length [(8, c)])
      {work ++ (loopTestInstrs n ++ [branchInstr SqOp.sCbranchScc0 imm])}
      (Wave.At (if n.slt (1 + c) then edge + 1 else target) [(8, 1 + c)]) := by
  have worked := @spells_straight ν hw words [(8, c)] _ work legal plain pre layout
  rw [← List.append_assoc] at layout
  have length : (pre ++ work.flatMap si.encode).length =
      pre.length + (work.flatMap si.encode).length := List.length_append
  have tested := @spells_loopTest ν hw words _ _ n c imm target layout (by rw [length]; omega)
  rw [length] at tested
  subst stands
  exact worked.words tested

end Test

namespace Generator

variable (args : KernelArgs) (ii2 : Nat)

/-- The count that a loop is tested with. -/
def iternum : Generator → Nat
  | flops => 10000
  | mandelbrot => 0x4FF
  | _ => 1000

/-- What is done over and over. -/
def unit : Generator → Instr SqFormat 32
  | fma => fmaCall.instr
  | flops => flopCall.instr
  | read => BuilderCall.instr (.mtbuf 4 14 3 0 0 1 0 0 128 0 0 0 4 3)
  | write => BuilderCall.instr (.mtbuf 4 14 7 0 0 1 0 0 128 0 0 0 4 3)
  | mandelbrot => BuilderCall.instr (.vAddF32 10 10 242)

/-- A loop up to its test. -/
def workInstrs : Generator → List (Instr SqFormat 32)
  | fma => (List.replicate ii2 [fmaCall.instr]).flatten
  | flops => (List.replicate ii2 [flopCall.instr]).flatten
  | read => addressCall.instr :: (List.replicate ii2 (readCalls.map BuilderCall.instr)).flatten
  | write => addressCall.instr :: (List.replicate ii2 (writeCalls.map BuilderCall.instr)).flatten
  | mandelbrot => mandelbrotBodyCalls.map BuilderCall.instr

/-- What the second dword of the first instruction reads as in the `fma` kernel:
`V_WRITELANE_B32`. -/
def strayInstr : Instr SqFormat 32 := ⟨.vop2, 0x02, [9, 4, 261], [], none⟩

/-- What the branch back leads to, up to the test. -/
def againInstrs : Generator → List (Instr SqFormat 32)
  | fma => strayInstr :: (List.replicate (ii2 - 1) [fmaCall.instr]).flatten
  | flops => (List.replicate (ii2 - 1) [flopCall.instr]).flatten
  | g => workInstrs ii2 g

/-- The rest of a program up to `s_endpgm`. -/
def ranInstrs (g : Generator) : List (Instr SqFormat 32) :=
  (restInstrs args g).takeWhile (· ≠ BuilderCall.sEndpgm.instr)

/-- The test and the branch back. -/
def closeInstrs (imm : BitVec 16) (g : Generator) : List (Instr SqFormat 32) :=
  loopTestInstrs (.ofNat 32 g.iternum) ++ [branchInstr SqOp.sCbranchScc0 imm]

/-- What a wave executes in a counted loop's program. -/
def trace (imm : BitVec 16) (g : Generator) : List (Instr SqFormat 32) :=
  setupInstrs args g ++ (workInstrs ii2 g ++ closeInstrs imm g) ++
    (List.replicate g.iternum (againInstrs ii2 g ++ closeInstrs imm g)).flatten ++ ranInstrs args g

variable {args ii2} {g : Generator}

theorem loopInstrs_eq (counted : g ≠ mandelbrot) :
    loopInstrs ii2 g = workInstrs ii2 g ++ loopTestInstrs (.ofNat 32 g.iternum) := by
  cases g with
  | mandelbrot => exact absurd rfl counted
  | _ => rfl

theorem restInstrs_eq (g : Generator) :
    ∃ more, restInstrs args g = ranInstrs args g ++ BuilderCall.sEndpgm.instr :: more := by
  cases g with
  | _ => exact ⟨_, rfl⟩

/-- The counter is cleared in the setup, and what follows leaves it alone. -/
theorem setupInstrs_eq (counted : g ≠ mandelbrot) : ∃ before after,
    setupInstrs args g = before ++ BuilderCall.instr (.sMovImm32 8 0) :: after ∧
      (∀ i ∈ before, avoids [] i = true) ∧ ∀ i ∈ after, avoids [8] i = true := by
  have cut : ∀ before after : List (Instr SqFormat 32), before.all (avoids []) = true →
      after.all (avoids [8]) = true → (∀ i ∈ before, avoids [] i = true) ∧
        ∀ i ∈ after, avoids [8] i = true := by
    intro before after first second
    exact ⟨List.all_eq_true.mp first, List.all_eq_true.mp second⟩
  cases g with
  | mandelbrot => exact absurd rfl counted
  | fma => exact ⟨clockStartCalls.map BuilderCall.instr ++
      loopStartCalls.dropLast.map BuilderCall.instr,
      operandStartCalls.map BuilderCall.instr, rfl, cut _ _ rfl rfl⟩
  | flops => exact ⟨(trapStartCalls args.trapVa).map BuilderCall.instr ++
      clockStartCalls.map BuilderCall.instr ++
      loopStartCalls.dropLast.map BuilderCall.instr,
      operandStartCalls.map BuilderCall.instr, rfl, cut _ _ rfl rfl⟩
  | read => exact ⟨clockStartCalls.map BuilderCall.instr ++
      (loadResourceCalls (integerResource args.testVa 16)).map BuilderCall.instr ++
      loopStartCalls.dropLast.map BuilderCall.instr,
      (threadStartCalls 512).map BuilderCall.instr, rfl, cut _ _ rfl rfl⟩
  | write => exact ⟨clockStartCalls.map BuilderCall.instr ++
      (loadResourceCalls (integerResource args.testVa 16)).map BuilderCall.instr ++
      loopStartCalls.dropLast.map BuilderCall.instr,
      (threadStartCalls 256).map BuilderCall.instr, rfl, cut _ _ rfl rfl⟩

theorem avoids_workInstrs (counted : g ≠ mandelbrot) :
    ∀ i ∈ workInstrs ii2 g, avoids [8] i = true := by
  have repeated : ∀ is : List (Instr SqFormat 32), (∀ i ∈ is, avoids [8] i = true) →
      ∀ i ∈ (List.replicate ii2 is).flatten, avoids [8] i = true := by
    intro is each i member
    obtain ⟨copy, among, inside⟩ := List.mem_flatten.mp member
    obtain rfl : copy = is := List.eq_of_mem_replicate among
    exact each i inside
  cases g with
  | mandelbrot => exact absurd rfl counted
  | fma => exact repeated _ (by decide)
  | flops => exact repeated _ (by decide)
  | read => exact List.forall_mem_cons.mpr ⟨rfl, repeated _ (by decide)⟩
  | write => exact List.forall_mem_cons.mpr ⟨rfl, repeated _ (by decide)⟩

/-! ## Where the parts stand -/

section Layout

variable {imm : BitVec 16}

/-- The dwords of a program in front of its first `s_endpgm`, and where its parts begin. -/
theorem words_eq (counted : g ≠ mandelbrot) (reads : (g.program args ii2).ReadsAs
    (setupInstrs args g) (loopInstrs ii2 g) (restInstrs args g) imm) : ∃ post,
      (g.program args ii2).words = (setupInstrs args g).flatMap si.encode ++
        ((workInstrs ii2 g).flatMap si.encode ++ ((closeInstrs imm g).flatMap si.encode ++
          ((ranInstrs args g).flatMap si.encode ++
            (si.encode BuilderCall.sEndpgm.instr ++ post)))) ∧
      ((setupInstrs args g).flatMap si.encode).length +
        ((workInstrs ii2 g).flatMap si.encode).length + 4 = (g.program args ii2).edge := by
  obtain ⟨more, rest⟩ := @restInstrs_eq args g
  refine ⟨more.flatMap si.encode, ?_, ?_⟩
  · rw [reads.lists.encoded, loopInstrs_eq counted, rest]
    simp [closeInstrs]
  · rw [← reads.edge, loopInstrs_eq counted, List.flatMap_append, List.length_append]
    rfl

theorem leads (short : (g.program args ii2).edge - (g.program args ii2).body < 32768)
    (reads : (g.program args ii2).ReadsAs (setupInstrs args g) (loopInstrs ii2 g)
      (restInstrs args g) imm) :
    ((g.program args ii2).edge + 1 : Int) + imm.toInt =
      ((g.program args ii2).body + if g = fma ∨ g = flops then 1 else 0 : Nat) := by
  have stands : (g.program args ii2).words[(g.program args ii2).edge]? =
      some (branchWord SqOp.sCbranchScc0 imm) := by
    have branch := (@lists_branch SqOp.sCbranchScc0 (by decide) imm).encoded
    rw [List.flatMap_singleton] at branch
    rw [reads.lists.encoded, ← reads.edge, List.flatMap_append, List.flatMap_append,
      List.flatMap_cons, ← branch, ← List.append_assoc, ← List.length_append,
      List.getElem?_append_right (Nat.le_refl _), Nat.sub_self]
    rfl
  have target := branch_target short stands
  rw [branchTarget, displacement_branchWord (by decide)] at target
  rw [target]
  split
  · rfl
  · simp

end Layout

/-! ## What the branch back leads to -/

theorem legal_strayInstr : si.Legal strayInstr where
  clear := clear_of_own (Nat.le_of_ble_eq_true rfl)
  holds := by decide
  fits := by decide
  fits_more := .nil
  asks := by decide

/-- The work, but for the dword that an arithmetic kernel skips. -/
theorem again_eq (counted : g ≠ mandelbrot) (some : 1 ≤ ii2)
    (legal : ∀ i ∈ workInstrs ii2 g, si.Legal i) : ∃ skipped : List Dword,
      skipped.length = (if g = fma ∨ g = flops then 1 else 0) ∧
      (workInstrs ii2 g).flatMap si.encode = skipped ++ (againInstrs ii2 g).flatMap si.encode ∧
      (∀ i ∈ againInstrs ii2 g, si.Legal i) ∧ ∀ i ∈ againInstrs ii2 g, avoids [8] i = true := by
  have plain := @avoids_workInstrs ii2 g counted
  obtain ⟨n, rfl⟩ : ∃ n, ii2 = n + 1 := ⟨ii2 - 1, (Nat.sub_add_cancel some).symm⟩
  cases g with
  | mandelbrot => exact absurd rfl counted
  | read => exact ⟨[], rfl, rfl, legal, plain⟩
  | write => exact ⟨[], rfl, rfl, legal, plain⟩
  | fma =>
      have work : workInstrs (n + 1) fma =
          fmaCall.instr :: (List.replicate n [fmaCall.instr]).flatten := rfl
      rw [work, List.forall_mem_cons] at legal plain
      refine ⟨[3533045764], rfl, ?_, ?_, ?_⟩
      · rw [work]
        rfl
      · exact List.forall_mem_cons.mpr ⟨legal_strayInstr, legal.2⟩
      · exact List.forall_mem_cons.mpr ⟨rfl, plain.2⟩
  | flops =>
      have work : workInstrs (n + 1) flops =
          flopCall.instr :: (List.replicate n [flopCall.instr]).flatten := rfl
      rw [work, List.forall_mem_cons] at legal plain
      exact ⟨si.encode flopCall.instr, rfl, by rw [work]; rfl, legal.2, plain.2⟩

/-! ## From the first instruction to the last -/

/-- The setup clears the counter and comes to the loop. -/
theorem spells_setup (counted : g ≠ mandelbrot) (legal : ∀ i ∈ setupInstrs args g, si.Legal i)
    {post : List Dword} (layout : words = (setupInstrs args g).flatMap si.encode ++ post) :
    (waveSystem hw words).Spells (fun w => w.pc = 0) {setupInstrs args g}
      (Wave.At ((setupInstrs args g).flatMap si.encode).length [(8, 0)]) := by
  obtain ⟨before, after, cut, plain, plain'⟩ := @setupInstrs_eq args g counted
  rw [cut] at legal layout ⊢
  rw [List.forall_mem_append, List.forall_mem_cons] at legal
  obtain ⟨legal, own, legal'⟩ := legal
  rw [List.flatMap_append, List.flatMap_cons, List.append_assoc, List.append_assoc] at layout
  have first := @spells_straight ν hw words [] _ before legal plain [] layout
  have second := @spells_sets ν hw words _ _ _ [] 8 0 (fetch_encode own layout) rfl
    fun w _ => ⟨_, rfl⟩
  rw [← List.append_assoc] at layout
  have third := @spells_straight ν hw words [(8, 0)] _ after legal' plain' _ layout
  rw [List.length_append] at third
  rw [List.length_nil, Nat.zero_add] at first
  rw [List.flatMap_append, List.flatMap_cons, List.length_append, List.length_append,
    ← Nat.add_assoc]
  refine (first.words (second.words third)).mono (fun w here => ⟨here, ?_⟩) fun _ => id
  exact fun p member => absurd member (List.not_mem_nil)

theorem one_add_ofNat (k : Nat) : 1 + BitVec.ofNat 32 k = BitVec.ofNat 32 (k + 1) := by
  rw [Nat.add_comm k, BitVec.ofNat_add]
  rfl

/-- The count is above `n` after the last of `n + 1` passes only. -/
theorem slt_count {n k : Nat} (small : n < 2 ^ 31 - 1) (below : k ≤ n) :
    (BitVec.ofNat 32 n).slt (1 + BitVec.ofNat 32 k) = decide (k = n) := by
  have value (m : Nat) (fits : m < 2 ^ 31) : (BitVec.ofNat 32 m).toInt = m := by
    rw [BitVec.toInt_ofNat', Int.bmod_eq_of_le (by omega) (by omega)]
  rw [one_add_ofNat, BitVec.slt_eq_decide, value n (by omega), value (k + 1) (by omega)]
  congr 1
  apply propext
  omega

theorem avoids_ranInstrs (counted : g ≠ mandelbrot) :
    ∀ i ∈ ranInstrs args g, avoids [] i = true := by
  apply List.all_eq_true.mp
  cases g with
  | mandelbrot => exact absurd rfl counted
  | _ => rfl

theorem iternum_small (g : Generator) : g.iternum < 2 ^ 31 - 1 := by
  cases g with
  | _ => decide

/-- A wave from the first instruction of a counted loop's program to the last. -/
theorem spells_trace (counted : g ≠ mandelbrot) (repeats : 1 ≤ ii2)
    (short : (g.program args ii2).edge - (g.program args ii2).body < 32768) {imm : BitVec 16}
    (reads : (g.program args ii2).ReadsAs (setupInstrs args g) (loopInstrs ii2 g)
      (restInstrs args g) imm) :
    (waveSystem hw (g.program args ii2).words).Spells (fun w => w.pc = 0) {trace args ii2 imm g}
      fun w => ∃ next, fetch (g.program args ii2).words w.pc =
        some (BuilderCall.sEndpgm.instr, next) := by
  have legal := reads.lists.legal
  rw [loopInstrs_eq counted, List.forall_mem_append, List.forall_mem_append,
    List.forall_mem_append, List.forall_mem_cons] at legal
  obtain ⟨legalSetup, ⟨legalWork, -⟩, -, legalRest⟩ := legal
  obtain ⟨more, rest⟩ := @restInstrs_eq args g
  rw [rest, List.forall_mem_append, List.forall_mem_cons] at legalRest
  obtain ⟨legalRan, legalEnd, -⟩ := legalRest
  obtain ⟨post, layout, edge⟩ := words_eq counted reads
  obtain ⟨skipped, skips, cut, legalAgain, plainAgain⟩ := again_eq counted repeats legalWork
  have back := leads short reads
  rw [← reads.body, ← skips, ← List.length_append] at back
  generalize (g.program args ii2).words = words, (g.program args ii2).edge = last at *
  -- where a wave is after `k + 1` passes
  let P : Nat → Wave ν → Prop := fun k => Wave.At
    (if k = g.iternum then last + 1 else ((setupInstrs args g).flatMap si.encode ++ skipped).length)
    [(8, BitVec.ofNat 32 (k + 1))]
  have pass : ∀ k ≤ g.iternum, ∀ (pre : List Dword) (work : List (Instr SqFormat 32)),
      (∀ i ∈ work, si.Legal i) → (∀ i ∈ work, avoids [8] i = true) →
      words = pre ++ (work.flatMap si.encode ++ ((closeInstrs imm g).flatMap si.encode ++
        ((ranInstrs args g).flatMap si.encode ++ (si.encode BuilderCall.sEndpgm.instr ++ post)))) →
      pre.length + (work.flatMap si.encode).length + 4 = last →
      (waveSystem hw words).Spells (Wave.At pre.length [(8, BitVec.ofNat 32 k)])
        {work ++ closeInstrs imm g} (P k) := by
    intro k below pre work legal plain layout stands
    have spelt := @spells_pass ν hw words pre _ _ (.ofNat 32 k) imm _ work last legal plain layout
      stands back
    rw [slt_count g.iternum_small below, one_add_ofNat] at spelt
    simp only [decide_eq_true_eq] at spelt
    exact spelt
  have setup := @spells_setup ν hw words args g counted legalSetup _ layout
  have first := pass 0 (Nat.zero_le _) _ _ legalWork (avoids_workInstrs counted) layout edge
  have again : ∀ k < g.iternum, (waveSystem hw words).Spells (P k)
      {againInstrs ii2 g ++ closeInstrs imm g} (P (k + 1)) := by
    intro k below
    rw [cut, List.append_assoc, ← List.append_assoc] at layout
    rw [cut, List.length_append] at edge
    have spelt := pass (k + 1) below _ _ legalAgain plainAgain layout
      (by rw [List.length_append]; omega)
    refine spelt.mono (fun w here => ?_) fun _ => id
    simpa [P, Nat.ne_of_lt below] using here
  have passed : words = ((setupInstrs args g).flatMap si.encode ++
      ((workInstrs ii2 g).flatMap si.encode ++ (closeInstrs imm g).flatMap si.encode)) ++
        ((ranInstrs args g).flatMap si.encode ++ (si.encode BuilderCall.sEndpgm.instr ++ post)) := by
    rw [layout]
    simp only [List.append_assoc]
  have behind : ((setupInstrs args g).flatMap si.encode ++ ((workInstrs ii2 g).flatMap si.encode ++
      (closeInstrs imm g).flatMap si.encode)).length = last + 1 := by
    have five : ((closeInstrs imm g).flatMap si.encode).length = 5 := rfl
    rw [List.length_append, List.length_append, five]
    omega
  have ran := @spells_straight ν hw words [] _ _ legalRan (avoids_ranInstrs counted) _ passed
  rw [← List.append_assoc] at passed
  have stop := fetch_encode legalEnd passed
  rw [List.length_append, behind] at stop
  rw [behind] at ran
  have left : ∀ w : Wave ν, P g.iternum w → w.At (last + 1) [] := by
    rintro w ⟨here, -⟩
    rw [if_pos rfl] at here
    exact ⟨here, fun p member => absurd member (List.not_mem_nil)⟩
  have whole := (setup.words first).words ((Lib.TSys.Spells.replicate again).words
    (ran.mono left fun _ => id))
  unfold trace
  rw [List.append_assoc]
  refine whole.mono (fun _ => id) fun w here => ?_
  rw [here.1]
  exact ⟨_, stop⟩

/-! ## What is counted -/

theorem count_replicate (n : Nat) (is : List (Instr SqFormat 32)) (i : Instr SqFormat 32) :
    (List.replicate n is).flatten.count i = n * is.count i := by
  rw [List.count_flatten, List.map_replicate, List.sum_replicate_nat]

theorem count_workInstrs (counted : g ≠ mandelbrot) :
    (workInstrs ii2 g).count g.unit = ii2 := by
  cases g with
  | mandelbrot => exact absurd rfl counted
  | fma => exact (count_replicate ii2 _ _).trans (Nat.mul_one ii2)
  | flops => exact (count_replicate ii2 _ _).trans (Nat.mul_one ii2)
  | read => exact (count_replicate ii2 _ _).trans (Nat.mul_one ii2)
  | write => exact (count_replicate ii2 _ _).trans (Nat.mul_one ii2)

theorem count_againInstrs (counted : g ≠ mandelbrot) (repeats : 1 ≤ ii2) :
    (againInstrs ii2 g).count g.unit + (if g = fma ∨ g = flops then 1 else 0) = ii2 := by
  have one (i : Instr SqFormat 32) (self : [i].count i = 1) :
      (List.replicate (ii2 - 1) [i]).flatten.count i + 1 = ii2 := by
    rw [count_replicate, self, Nat.mul_one]
    exact Nat.sub_add_cancel repeats
  cases g with
  | mandelbrot => exact absurd rfl counted
  | fma => exact one fmaCall.instr rfl
  | flops => exact one flopCall.instr rfl
  | read => exact @count_workInstrs ii2 read counted
  | write => exact @count_workInstrs ii2 write counted

/-- The first pass does all the work, and each of the others may miss one of it. -/
theorem count_trace (counted : g ≠ mandelbrot) (repeats : 1 ≤ ii2) {imm : BitVec 16} :
    (trace args ii2 imm g).count g.unit + (if g = fma ∨ g = flops then g.iternum else 0) =
      (g.iternum + 1) * ii2 := by
  have none : (setupInstrs args g).count g.unit = 0 ∧ (closeInstrs imm g).count g.unit = 0 ∧
      (ranInstrs args g).count g.unit = 0 := by
    cases g with
    | mandelbrot => exact absurd rfl counted
    | _ => exact ⟨rfl, rfl, rfl⟩
  have again := count_againInstrs counted repeats
  unfold trace
  rw [List.count_append, List.count_append, List.count_append, List.count_append,
    count_replicate, List.count_append, none.1, none.2.1, none.2.2, count_workInstrs counted,
    Nat.succ_mul]
  simp only [Nat.zero_add, Nat.add_zero]
  generalize (againInstrs ii2 g).count g.unit = count at again
  by_cases ahead : g = fma ∨ g = flops
  · rw [if_pos ahead] at again ⊢
    rw [← again, Nat.mul_succ]
    omega
  · rw [if_neg ahead, Nat.add_zero] at again
    rw [if_neg ahead, again]
    omega

end Generator

/-- At `s_endpgm` a wave is at its end. -/
theorem not_step_of_sEndpgm {w w' : Wave ν} {i : Instr SqFormat 32}
    (stop : ∃ next, fetch words w.pc = some (BuilderCall.sEndpgm.instr, next)) :
    ¬ (waveSystem hw words).step w i w' := by
  obtain ⟨next, fetched⟩ := stop
  intro step
  cases step with
  | scalar fetched' run =>
      obtain ⟨rfl, rfl⟩ := Prod.mk.inj (Option.some.inj (fetched.symm.trans fetched'))
      have none : w.scalar BuilderCall.sEndpgm.instr next = Option.none := rfl
      exact absurd (none.symm.trans run) (by simp)
  | vector fetched' writes =>
      obtain ⟨rfl, rfl⟩ := Prod.mk.inj (Option.some.inj (fetched.symm.trans fetched'))
      exact absurd writes (by simp [vectorWrites, BuilderCall.instr])

/-- **The passes through the counted loops.** Whatever the vector unit and the memory do, a wave
of one of the programs, with a loop of fewer than 2^15 dwords, executes the same instructions: it
goes on until it is through with them, and then stands at `s_endpgm`. The loop is passed
`iternum + 1` times; in the arithmetic kernels every pass but the first misses one instruction. -/
theorem program_passes (hw : Hardware ν) {g : Generator} (counted : g ≠ .mandelbrot)
    (args : KernelArgs) {ii2 : Nat} (repeats : 1 ≤ ii2)
    (short : (g.program args ii2).edge - (g.program args ii2).body < 32768) : ∃ imm,
      (∀ w : Wave ν, w.pc = 0 →
        (∃ w', (waveSystem hw (g.program args ii2).words).Run w (g.trace args ii2 imm) w') ∧
        ∀ is w', (waveSystem hw (g.program args ii2).words).Run w is w' →
          is <+: g.trace args ii2 imm ∧
          (is ≠ g.trace args ii2 imm ∧
              (∃ i w'', (waveSystem hw (g.program args ii2).words).step w' i w'') ∨
            is = g.trace args ii2 imm ∧ ∃ next, fetch (g.program args ii2).words w'.pc =
              some (BuilderCall.sEndpgm.instr, next))) ∧
      (g.trace args ii2 imm).count g.unit + (if g = .fma ∨ g = .flops then g.iternum else 0) =
        (g.iternum + 1) * ii2 := by
  obtain ⟨imm, reads⟩ := g.readsAs args ii2
  have spelt := @Generator.spells_trace ν hw args ii2 g counted repeats short imm reads
  exact ⟨imm, fun w start => spelt.of_word (fun _ _ _ stop => not_step_of_sEndpgm stop) start,
    Generator.count_trace counted repeats⟩

/-- A vector unit that never writes a scalar register. -/
def idleHardware : Hardware Unit where
  run _ w sgpr _ := sgpr = w.sgpr
  returns _ w := ⟨w.sgpr, (), rfl⟩
  keeps _ _ _ _ _ ran _ _ _ := congrFun ran _

/-- The `fma` kernel as it is built does 1024024 multiplications, and 1024000 are divided by. -/
theorem program_passes_fma : ∃ args imm w', (waveSystem idleHardware
    (Generator.fma.program args 1024).words).Run ⟨0, fun _ => 0, false, ()⟩
      (Generator.fma.trace args 1024 imm) w' ∧
    (Generator.fma.trace args 1024 imm).count fmaCall.instr = 1024024 := by
  obtain ⟨args⟩ : Nonempty KernelArgs := ⟨⟨0, 0, 0, ⟨0, 0, 0, 0, 0, 0, 0, 0, 0, 0, 0⟩⟩⟩
  have short : (Generator.fma.program args 1024).edge -
      (Generator.fma.program args 1024).body < 32768 := by
    rw [Generator.program, fmaProgram, LoopProgram.length_close, List.length_append, fmaBody,
      length_unrolled]
    decide
  obtain ⟨imm, runs, count⟩ := program_passes idleHardware (by decide) args (by decide) short
  obtain ⟨⟨w', run⟩, -⟩ := runs ⟨0, fun _ => 0, false, ()⟩ rfl
  refine ⟨args, imm, w', run, ?_⟩
  have exact : (Generator.fma.trace args 1024 imm).count fmaCall.instr + 1000 = 1001 * 1024 := count
  omega

end RadeonsiCompute
