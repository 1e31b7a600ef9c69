import RadeonsiCompute.Lib.Labels
import RadeonsiCompute.Shader.Listing

/-!
# A wave

How a wave goes through a program: the scalar unit moves, adds, compares and
branches, and everything else is done by the vector unit and the memory, of
which only the scalar registers they may write are known. The codes of the
registers and constants are those of the register header; what the scalar
instructions do is what the programs' comments say of them.
-/

namespace RadeonsiCompute

open Lib

/-- A wave: the index of its next dword, its scalar registers, the bit a compare leaves, and
the rest. -/
structure Wave (ν : Type) where
  pc : Nat
  sgpr : Nat → Dword
  scc : Bool
  rest : ν

/-- The instruction at an index of a program, and the index behind it. -/
def fetch (words : List Dword) (pc : Nat) : Option (Instr SqFormat 32 × Nat) :=
  (si.decodeOne (words.drop pc)).map fun p => (p.1, words.length - p.2.length)

namespace Wave

variable {ν : Type} (w : Wave ν)

/-- A scalar source: a register, an integer from 0 to 64 or from -1 to -16, or the literal. -/
def source (literal : Option Dword) (code : Dword) : Option Dword :=
  if code = 255 then literal
  else if code.toNat < 128 then some (w.sgpr code.toNat)
  else if code.toNat ≤ 192 then some (code - 128)
  else if code.toNat ≤ 208 then some (192 - code)
  else none

/-- No thread of the wave is on. -/
def execz : Bool := w.sgpr 126 = 0 ∧ w.sgpr 127 = 0

/-- Go on behind a branch, or where it leads to. -/
def branch (taken : Bool) (simm16 : Dword) (next : Nat) : Option (Wave ν) :=
  if taken then
    let target : Int := next + (simm16.setWidth 16).toInt
    if 0 ≤ target then some { w with pc := target.toNat } else none
  else some { w with pc := next }

/-- What the scalar unit makes of an instruction, if it is one of its own. -/
def scalar (i : Instr SqFormat 32) (next : Nat) : Option (Wave ν) :=
  match i.format, i.operands with
  | .sop2, [sdst, ssrc1, ssrc0] =>
      if i.op = SqOp.sAddI32 then do
        let a ← w.source i.literal ssrc0
        let b ← w.source i.literal ssrc1
        some { w with pc := next, sgpr := Function.update w.sgpr sdst.toNat (a + b),
                      scc := a.saddOverflow b }
      else none
  | .sopc, [ssrc1, ssrc0] =>
      if i.op = SqOp.sCmpLtI32 then do
        let a ← w.source i.literal ssrc0
        let b ← w.source i.literal ssrc1
        some { w with pc := next, scc := a.slt b }
      else none
  | .sop1, [sdst, ssrc0] =>
      if i.op = SqOp.sMovB32 then do
        let a ← w.source i.literal ssrc0
        some { w with pc := next, sgpr := Function.update w.sgpr sdst.toNat a }
      else if i.op = SqOp.sMovB64 ∧ ssrc0.toNat < 127 then
        some { w with
          pc := next
          sgpr := Function.update (Function.update w.sgpr sdst.toNat (w.sgpr ssrc0.toNat))
            (sdst.toNat + 1) (w.sgpr (ssrc0.toNat + 1)) }
      else none
  | .sopp, [simm16] =>
      if i.op = SqOp.sNop ∨ i.op = SqOp.sWaitcnt then some { w with pc := next }
      else if i.op = SqOp.sCbranchScc0 then w.branch (!w.scc) simm16 next
      else if i.op = SqOp.sCbranchExecz then w.branch w.execz simm16 next
      else none
  | _, _ => none

end Wave

/-- The scalar registers that an instruction of the vector unit or the memory may write, if it
is one: `VCC`, also `EXEC` for a compare, or the destination of a load. `V_READFIRSTLANE_B32`
and `V_READLANE_B32` are not among them. Of those in the long encoding only the ones from
`V_MAD_LEGACY_F32` to `V_MUL_HI_I32` are, which have no scalar destination. -/
def vectorWrites (i : Instr SqFormat 32) : Option (List Nat) :=
  match i.format, i.operands with
  | .vop1, _ => if i.op = 0x02 then none else some []
  | .vop2, _ => if i.op = 0x01 then none else some [106, 107]
  | .vop3, _ => if 0x140 ≤ i.op.toNat ∧ i.op ≤ SqOp.vMulHiI32 then some [] else none
  | .vopc, _ => some [106, 107, 126, 127]
  | .mtbuf, _ => some []
  | .mubuf, _ => some []
  | .smrd, sdst :: _ =>
      if i.op = SqOp.sMemtime then some [sdst.toNat, sdst.toNat + 1]
      else if i.op = SqOp.sLoadDword then some [sdst.toNat] else none
  | .sopk, sdst :: _ => if i.op = SqOp.sGetregB32 then some [sdst.toNat] else none
  | _, _ => none

/-- The vector unit and the memory: they always come to an end, and write no other scalar
registers. -/
structure Hardware (ν : Type) where
  run : Instr SqFormat 32 → Wave ν → (Nat → Dword) → ν → Prop
  returns : ∀ i w, ∃ sgpr rest, run i w sgpr rest
  keeps : ∀ i w sgpr rest dests, run i w sgpr rest → vectorWrites i = some dests →
    ∀ r ∉ dests, sgpr r = w.sgpr r

variable {ν : Type} (hw : Hardware ν) (words : List Dword)

/-- One instruction of the program. -/
inductive WaveStep : Wave ν → Instr SqFormat 32 → Wave ν → Prop
  | scalar {w i next w'} : fetch words w.pc = some (i, next) → w.scalar i next = some w' →
      WaveStep w i w'
  | vector {w i next dests sgpr rest} : fetch words w.pc = some (i, next) →
      vectorWrites i = some dests → hw.run i w sgpr rest →
      WaveStep w i { pc := next, sgpr, scc := w.scc, rest }

/-- A wave from the start of a program, with anything in its registers. -/
def waveSystem : TSys (Wave ν) (Instr SqFormat 32) where
  init w := w.pc = 0
  step := WaveStep hw words

/-! ## What is fetched -/

variable {hw words} {i : Instr SqFormat 32} {next k : Nat}

/-- A legal instruction is fetched from where its words begin. -/
theorem fetch_encode {pre post : List Dword} (legal : si.Legal i)
    (layout : words = pre ++ (si.encode i ++ post)) :
    fetch words pre.length = some (i, pre.length + (si.encode i).length) := by
  have behind : words.drop pre.length = si.encode i ++ post := by rw [layout, List.drop_left]
  rw [fetch, behind, Isa.decodeOne_encode legal, Option.map_some, layout]
  simp only [List.length_append]
  congr 2
  omega

/-- So is one out of a part of the program. -/
theorem fetch_listed {pre post : List Dword} {before after : List (Instr SqFormat 32)}
    (legal : si.Legal i)
    (layout : words = pre ++ ((before ++ i :: after).flatMap si.encode ++ post)) :
    fetch words (pre.length + (before.flatMap si.encode).length) =
      some (i, pre.length + (before.flatMap si.encode).length + (si.encode i).length) := by
  have here := @fetch_encode words i (pre ++ before.flatMap si.encode)
    (after.flatMap si.encode ++ post) legal (by rw [layout]; simp)
  rw [List.length_append] at here
  exact here

/-! ## One instruction -/

/-- The scalar unit and the others share no instruction. -/
theorem scalar_eq_none {dests : List Nat} (writes : vectorWrites i = some dests) (w : Wave ν)
    (next : Nat) : w.scalar i next = none := by
  obtain ⟨format, op, operands, more, literal⟩ := i
  cases format with
  | sopp | sopc | sop1 | sop2 => exact absurd writes (by simp [vectorWrites])
  | _ => rfl

/-- The rule for an instruction of the scalar unit. -/
theorem spells_scalar {P Q : Wave ν → Prop} (fetched : fetch words k = some (i, next))
    (own : vectorWrites i = none) (here : ∀ w, P w → w.pc = k)
    (does : ∀ w, P w → ∃ w', w.scalar i next = some w' ∧ Q w') :
    (waveSystem hw words).Spells P {[i]} Q := by
  refine .single (fun w start => ?_) fun w j w' start step => ?_
  · obtain ⟨w', run, -⟩ := does w start
    exact ⟨w', .scalar (by rw [here w start]; exact fetched) run⟩
  · obtain ⟨w₁, run, last⟩ := does w start
    cases step with
    | scalar fetched' run' =>
        rw [here w start, fetched] at fetched'
        obtain ⟨rfl, rfl⟩ := Prod.mk.inj (Option.some.inj fetched')
        obtain rfl := Option.some.inj (run.symm.trans run')
        exact ⟨rfl, last⟩
    | vector fetched' writes =>
        rw [here w start, fetched] at fetched'
        obtain ⟨rfl, rfl⟩ := Prod.mk.inj (Option.some.inj fetched')
        exact absurd (own.symm.trans writes) (by simp)

/-- Where a wave is, and what some of its registers hold. -/
def Wave.At (k : Nat) (known : List (Nat × Dword)) (w : Wave ν) : Prop :=
  w.pc = k ∧ ∀ p ∈ known, w.sgpr p.1 = p.2

/-- The scalar registers that an instruction may write that goes on to the next one. -/
def plainWrites (i : Instr SqFormat 32) : Option (List Nat) :=
  match i.format, i.operands with
  | .sopp, [_] => if i.op = SqOp.sNop ∨ i.op = SqOp.sWaitcnt then some [] else none
  | .sop1, [sdst, ssrc0] =>
      if i.op = SqOp.sMovB32 ∧ ssrc0 = 255 ∧ i.literal.isSome then some [sdst.toNat] else none
  | _, _ => vectorWrites i

/-- The instruction goes on to the next one and writes none of the registers. -/
def avoids (regs : List Nat) (i : Instr SqFormat 32) : Bool :=
  (plainWrites i).any fun dests => regs.all fun r => !dests.contains r

/-- The vector unit and the memory do it, or the scalar unit without a look at its registers. -/
theorem plainWrites_cases {dests : List Nat} (writes : plainWrites i = some dests) :
    vectorWrites i = some dests ∨ vectorWrites i = none ∧ ∀ (w : Wave ν) (next : Nat), ∃ w',
      w.scalar i next = some w' ∧ w'.pc = next ∧ ∀ r ∉ dests, w'.sgpr r = w.sgpr r := by
  obtain ⟨format, op, operands, more, literal⟩ := i
  cases format with
  | sopp =>
      refine .inr ⟨rfl, fun w next => ?_⟩
      rcases operands with _ | ⟨simm16, _ | ⟨second, rest⟩⟩
      · exact absurd writes (by simp [plainWrites, vectorWrites])
      · by_cases idle : op = SqOp.sNop ∨ op = SqOp.sWaitcnt
        · exact ⟨{ w with pc := next }, if_pos idle, rfl, fun r _ => rfl⟩
        · exact absurd writes (by simp [plainWrites, idle])
      · exact absurd writes (by simp [plainWrites, vectorWrites])
  | sop1 =>
      refine .inr ⟨rfl, fun w next => ?_⟩
      rcases operands with _ | ⟨sdst, _ | ⟨ssrc0, _ | ⟨third, rest⟩⟩⟩
      · exact absurd writes (by simp [plainWrites, vectorWrites])
      · exact absurd writes (by simp [plainWrites, vectorWrites])
      · by_cases move : op = SqOp.sMovB32 ∧ ssrc0 = 255 ∧ literal.isSome
        · obtain ⟨rfl, rfl, has⟩ := move
          obtain ⟨value, rfl⟩ := Option.isSome_iff_exists.mp has
          obtain rfl : [sdst.toNat] = dests := by simpa [plainWrites] using writes
          refine ⟨{ w with pc := next, sgpr := Function.update w.sgpr sdst.toNat value }, rfl, rfl,
            fun r other => ?_⟩
          exact Function.update_of_ne (by simpa using other) _ _
        · have none : Option.none = some dests := (if_neg move).symm.trans writes
          exact absurd none (by simp)
      · exact absurd writes (by simp [plainWrites, vectorWrites])
  | _ => exact .inl writes

/-- The rule for such an instruction. -/
theorem spells_avoids {known : List (Nat × Dword)} (fetched : fetch words k = some (i, next))
    (plain : avoids (known.map Prod.fst) i = true) :
    (waveSystem hw words).Spells (Wave.At k known) {[i]} (Wave.At next known) := by
  obtain ⟨dests, writes, apart⟩ := (Option.any_eq_true _ _).mp plain
  have clear : ∀ p ∈ known, p.1 ∉ dests := by
    intro p member
    simpa using List.all_eq_true.mp apart p.1 (List.mem_map_of_mem member)
  cases @plainWrites_cases ν _ _ writes with
  | inl vector =>
      refine .single (fun w start => ?_) fun w j w' start step => ?_
      · obtain ⟨sgpr, rest, ran⟩ := hw.returns i w
        exact ⟨_, .vector (by rw [start.1]; exact fetched) vector ran⟩
      · cases step with
        | scalar fetched' run =>
            rw [start.1, fetched] at fetched'
            obtain ⟨rfl, rfl⟩ := Prod.mk.inj (Option.some.inj fetched')
            rw [scalar_eq_none vector] at run
            exact absurd run (by simp)
        | vector fetched' writes' ran =>
            rw [start.1, fetched] at fetched'
            obtain ⟨rfl, rfl⟩ := Prod.mk.inj (Option.some.inj fetched')
            refine ⟨rfl, rfl, fun p member => ?_⟩
            exact (hw.keeps _ _ _ _ _ ran vector p.1 (clear p member)).trans (start.2 p member)
  | inr scalar =>
      obtain ⟨own, runs⟩ := scalar
      refine spells_scalar fetched own (fun w start => start.1) fun w start => ?_
      obtain ⟨w', run, there, keeps⟩ := runs w next
      refine ⟨w', run, there, fun p member => ?_⟩
      rw [keeps p.1 (clear p member), start.2 p member]

/-- The rule for an instruction of the scalar unit that sets a register. -/
theorem spells_sets {known : List (Nat × Dword)} {r : Nat} {v : Dword}
    (fetched : fetch words k = some (i, next)) (own : vectorWrites i = none)
    (does : ∀ w : Wave ν, (∀ p ∈ known, w.sgpr p.1 = p.2) → ∃ scc, w.scalar i next =
      some { w with pc := next, sgpr := Function.update w.sgpr r v, scc }) :
    (waveSystem hw words).Spells (Wave.At k known) {[i]}
      (Wave.At next ((r, v) :: known.filter fun p => p.1 ≠ r)) := by
  refine spells_scalar fetched own (fun w here => here.1) fun w here => ?_
  obtain ⟨scc, run⟩ := does w here.2
  refine ⟨_, run, rfl, ?_⟩
  rw [List.forall_mem_cons]
  refine ⟨Function.update_self r v w.sgpr, fun p member => ?_⟩
  obtain ⟨old, other⟩ := List.mem_filter.mp member
  exact (Function.update_of_ne (of_decide_eq_true other) _ _).trans (here.2 p old)

/-- The rule for a compare. -/
theorem spells_compare {known : List (Nat × Dword)} {b : Bool}
    (fetched : fetch words k = some (i, next)) (own : vectorWrites i = none)
    (does : ∀ w : Wave ν, (∀ p ∈ known, w.sgpr p.1 = p.2) →
      w.scalar i next = some { w with pc := next, scc := b }) :
    (waveSystem hw words).Spells (Wave.At k known) {[i]}
      fun w => w.At next known ∧ w.scc = b := by
  refine spells_scalar fetched own (fun w here => here.1) fun w here => ?_
  exact ⟨_, does w here.2, ⟨rfl, here.2⟩, rfl⟩

section Branches

variable {known : List (Nat × Dword)} {imm : BitVec 16} {target : Nat}

theorem Wave.branch_eq {w : Wave ν} (leads : (next : Int) + imm.toInt = target) (taken : Bool) :
    w.branch taken (imm.setWidth 32) next =
      some { w with pc := if taken then target else next } := by
  have narrow : (imm.setWidth 32).setWidth 16 = imm := by simp
  unfold Wave.branch
  rw [narrow]
  cases taken with
  | false => rfl
  | true =>
      show (if (0 : Int) ≤ next + imm.toInt then
        some { w with pc := ((next : Int) + imm.toInt).toNat } else none) = _
      rw [leads, if_pos (Int.natCast_nonneg target)]
      rfl

/-- The rule for a branch that is taken when the compare has failed. -/
theorem spells_cbranchScc0 {b : Bool}
    (fetched : fetch words k = some (branchInstr SqOp.sCbranchScc0 imm, next))
    (leads : (next : Int) + imm.toInt = target) :
    (waveSystem hw words).Spells (fun w => w.At k known ∧ w.scc = b)
      {[branchInstr SqOp.sCbranchScc0 imm]} (Wave.At (if b then next else target) known) := by
  refine spells_scalar fetched rfl (fun w here => here.1.1) fun w here => ?_
  refine ⟨_, Wave.branch_eq leads (!w.scc), ?_, here.1.2⟩
  rw [here.2]
  cases b <;> rfl

/-- The rule for a branch that is taken when no thread is on. -/
theorem spells_cbranchExecz
    (fetched : fetch words k = some (branchInstr SqOp.sCbranchExecz imm, next))
    (leads : (next : Int) + imm.toInt = target) :
    (waveSystem hw words).Spells (Wave.At k known) {[branchInstr SqOp.sCbranchExecz imm]}
      fun w => w.At target known ∨ w.At next known := by
  refine spells_scalar fetched rfl (fun w here => here.1) fun w here => ?_
  refine ⟨_, Wave.branch_eq leads w.execz, ?_⟩
  cases w.execz with
  | true => exact .inl ⟨rfl, here.2⟩
  | false => exact .inr ⟨rfl, here.2⟩

end Branches

/-! ## Straight through -/

/-- The rule for instructions that go on to the next one and keep what is known. -/
theorem spells_straight {known : List (Nat × Dword)} {post : List Dword}
    (is : List (Instr SqFormat 32)) : (∀ i ∈ is, si.Legal i) →
    (∀ i ∈ is, avoids (known.map Prod.fst) i = true) → ∀ pre : List Dword,
      words = pre ++ (is.flatMap si.encode ++ post) →
      (waveSystem hw words).Spells (Wave.At pre.length known) {is}
        (Wave.At (pre.length + (is.flatMap si.encode).length) known) := by
  induction is with
  | nil => intro _ _ pre _; exact .nil
  | cons i is ih =>
      intro legal plain pre layout
      rw [List.forall_mem_cons] at legal plain
      rw [List.flatMap_cons, List.append_assoc] at layout
      have first := @spells_avoids ν hw words _ _ _ known (fetch_encode legal.1 layout) plain.1
      have rest := ih legal.2 plain.2 (pre ++ si.encode i) (by rw [layout, List.append_assoc])
      rw [List.length_append] at rest
      rw [List.flatMap_cons, List.length_append, ← Nat.add_assoc]
      exact first.words rest

end RadeonsiCompute
