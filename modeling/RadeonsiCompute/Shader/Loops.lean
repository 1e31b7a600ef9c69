import RadeonsiCompute.Shader.Kernels

/-!
# Where the loops return to

A branch displaced from the word after it must be given one less than the
distance of the two pointers. The memory kernels and the Mandelbrot kernel do
that, each in its own way; the arithmetic kernels give the distance itself and
always return one dword too far. A distance of more than 32768 dwords does not
fit the `int16_t` and is cut off in silence.
-/

namespace RadeonsiCompute

open Lib CodeHelper

namespace LoopProgram

/-- The branch back, if taken, goes to the first instruction of the loop body. -/
def Returns (l : LoopProgram) : Prop :=
  ∃ word, l.words[l.edge]? = some word ∧ branchTarget l.edge word = l.body

variable {setup loop rest : List Dword} {distance : Int → Int → Int}

/-- The branch stands right after the loop. -/
theorem word_edge_close :
    (close setup loop rest distance).words[(close setup loop rest distance).edge]? =
      some (branchWord 4 (.ofInt 16 (distance setup.length (setup ++ loop).length))) := by
  show (setup ++ loop ++ (sCbranchScc0 _ ++ rest))[(setup ++ loop).length]? = _
  rw [List.getElem?_append_right (Nat.le_refl _), Nat.sub_self]
  rfl

/-- The narrowed displacement must lead from behind the branch to the loop. -/
theorem returns_close_iff : (close setup loop rest distance).Returns ↔
    (BitVec.ofInt 16 (distance setup.length (setup ++ loop).length)).toInt =
      -(loop.length : Int) - 1 := by
  have lands (imm : BitVec 16) :
      branchTarget (setup ++ loop).length (branchWord 4 imm) = setup.length ↔
        imm.toInt = -(loop.length : Int) - 1 := by
    have wide : displacement (branchWord 4 imm) = imm.toInt := displacement_branchWord (by decide)
    rw [branchTarget, wide, List.length_append]
    omega
  constructor
  · rintro ⟨word, stands, target⟩
    rw [word_edge_close] at stands
    obtain rfl := Option.some.inj stands
    exact (lands _).mp target
  · exact fun displaced => ⟨_, word_edge_close, (lands _).mpr displaced⟩

/-- The distance of the two pointers misses the loop by one, whatever the narrowing does to it. -/
theorem not_returns_of_distance (label : ∀ eleje p, distance eleje p = eleje - p) :
    ¬ (close setup loop rest distance).Returns := by
  intro returns
  have displaced := returns_close_iff.mp returns
  have same := toInt_ofInt_16_emod (d := distance setup.length (setup ++ loop).length)
  rw [displaced, label, List.length_append] at same
  omega

/-- One less than the distance is right if it is not cut off. -/
theorem returns_iff_of_behind (label : ∀ eleje p, distance eleje p = eleje - p - 1) :
    (close setup loop rest distance).Returns ↔ loop.length < 32768 := by
  have value : distance setup.length (setup ++ loop).length = -(loop.length : Int) - 1 := by
    rw [label, List.length_append]
    omega
  rw [returns_close_iff, value]
  constructor
  · intro kept
    have low := (BitVec.ofInt 16 (-(loop.length : Int) - 1)).le_toInt
    rw [kept] at low
    omega
  · intro short
    exact toInt_ofInt_16 (by omega) (by omega)

/-- An arithmetic kernel goes on one dword behind the start of its loop if the distance fits. -/
theorem target_of_distance (label : ∀ eleje p, distance eleje p = eleje - p)
    (short : loop.length ≤ 32768) {word : Dword}
    (stands : (close setup loop rest distance).words[(close setup loop rest distance).edge]? =
      some word) :
    branchTarget (close setup loop rest distance).edge word =
      (close setup loop rest distance).body + 1 := by
  rw [word_edge_close] at stands
  obtain rfl := Option.some.inj stands
  have wide : displacement (branchWord 4 (.ofInt 16 (distance setup.length
      (setup ++ loop).length))) = distance setup.length (setup ++ loop).length := by
    rw [displacement_branchWord (by decide)]
    apply toInt_ofInt_16
    · rw [label, List.length_append]
      omega
    · rw [label, List.length_append]
      omega
  show ((setup ++ loop).length : Int) + 1 + displacement _ = (setup.length : Int) + 1
  rw [wide, label]
  omega

end LoopProgram

/-! ## The loops of the kernels -/

section Kernels

variable {args : KernelArgs} {ii2 : Nat}

theorem length_unrolled (ii2 : Nat) (group : List Dword) :
    (List.replicate ii2 group).flatten.length = ii2 * group.length := by
  rw [List.length_flatten, List.map_replicate, List.sum_replicate_nat]

/-- The label one dword early makes up for the branch counting from the word behind it. The body
of a memory kernel is two dwords and then five for each access. -/
theorem memory_returns_iff {setup group rest first : List Dword} {distance : Int → Int → Int}
    (label : ∀ p₀ p, distance p₀ p = p₀ - 1 - p) (two : first.length = 2)
    (five : group.length = 5) :
    (LoopProgram.close setup
      (first ++ (List.replicate ii2 group).flatten ++ loopTest 1000) rest distance).Returns ↔
        ii2 ≤ 6552 := by
  have length : (first ++ (List.replicate ii2 group).flatten ++ loopTest 1000).length =
      6 + 5 * ii2 := by
    have test : (loopTest 1000).length = 4 := rfl
    rw [List.length_append, List.length_append, length_unrolled, two, five, test]
    omega
  have behind (p₀ p : Int) : distance p₀ p = p₀ - p - 1 := by
    rw [label]
    omega
  rw [LoopProgram.returns_iff_of_behind behind, length]
  omega

theorem fmaProgram_not_returns : ¬ (fmaProgram ii2).Returns :=
  LoopProgram.not_returns_of_distance fun _ _ => rfl

theorem flopsProgram_not_returns {trapVa : BitVec 64} : ¬ (flopsProgram trapVa ii2).Returns :=
  LoopProgram.not_returns_of_distance fun _ _ => rfl

/-- It goes on with the second dword of its first instruction. -/
theorem fmaProgram_target (short : ii2 ≤ 16382) {word : Dword}
    (stands : (fmaProgram ii2).words[(fmaProgram ii2).edge]? = some word) :
    branchTarget (fmaProgram ii2).edge word = (fmaProgram ii2).body + 1 := by
  apply LoopProgram.target_of_distance (fun _ _ => rfl) _ stands
  rw [List.length_append, fmaBody, length_unrolled]
  show ii2 * 2 + 4 ≤ 32768
  omega

theorem readProgram_returns_iff {testVa dataVa : BitVec 64} :
    (readProgram testVa dataVa ii2).Returns ↔ ii2 ≤ 6552 :=
  memory_returns_iff (fun _ _ => rfl) rfl rfl

theorem writeProgram_returns_iff {testVa dataVa : BitVec 64} :
    (writeProgram testVa dataVa ii2).Returns ↔ ii2 ≤ 6552 :=
  memory_returns_iff (fun _ _ => rfl) rfl rfl

theorem mandelbrotProgram_returns {image : MandelbrotArgs} : (mandelbrotProgram image).Returns := by
  rw [mandelbrotProgram, LoopProgram.returns_iff_of_behind fun _ _ => rfl]
  decide

/-- The branch over the loop test goes on behind the branch back. -/
theorem mandelbrot_exit (image : MandelbrotArgs) :
    ∃ word, (mandelbrotProgram image).words[(mandelbrotProgram image).edge - 3]? = some word ∧
      displacement word = 3 ∧
      branchTarget ((mandelbrotProgram image).edge - 3) word = (mandelbrotProgram image).edge + 1 := by
  have wide : displacement (branchWord 8 3) = 3 := displacement_branchWord (by decide)
  refine ⟨branchWord 8 3, rfl, wide, ?_⟩
  rw [branchTarget, wide]
  rfl

end Kernels

namespace Generator

variable {args : KernelArgs} {ii2 : Nat}

theorem program_returns_iff (g : Generator) : (g.program args ii2).Returns ↔
    g = mandelbrot ∨ (g = read ∨ g = write) ∧ ii2 ≤ 6552 := by
  cases g with
  | fma => exact iff_of_false fmaProgram_not_returns (by simp)
  | flops => exact iff_of_false flopsProgram_not_returns (by simp)
  | read =>
      rw [show (program read args ii2).Returns ↔ ii2 ≤ 6552 from readProgram_returns_iff]
      simp
  | write =>
      rw [show (program write args ii2).Returns ↔ ii2 ≤ 6552 from writeProgram_returns_iff]
      simp
  | mandelbrot => exact iff_of_true mandelbrotProgram_returns (.inl rfl)

end Generator

/-- Which kernels return to their loops: not the arithmetic ones, and the memory kernels as long
as the distance fits, or their check has stopped them. -/
theorem loop_returns_iff (g : Generator) (args : KernelArgs) (ii2 : Nat) :
    (∀ l, g.emit args ii2 = .ok l → l.Returns) ↔
      g = .mandelbrot ∨ (g = .read ∨ g = .write) ∧ (g.admits ii2 = true → ii2 ≤ 6552) := by
  have emitted : (∀ l, g.emit args ii2 = .ok l → l.Returns) ↔
      (g.admits ii2 = true → (g.program args ii2).Returns) := by
    unfold Generator.emit
    split
    · next admitted =>
        exact ⟨fun all _ => all _ rfl, fun one l same => Except.ok.inj same ▸ one admitted⟩
    · next stopped =>
        exact iff_of_true (fun _ same => by cases same) fun admitted => absurd admitted stopped
  rw [emitted, Generator.program_returns_iff]
  cases g with
  | fma => simp [Generator.admits]
  | flops => simp [Generator.admits]
  | read => simp
  | write => simp
  | mandelbrot => simp

/-- With the repetition count it is built with, the `fma` kernel returns into the second dword
of its first instruction. -/
theorem fma_returns_inside : ¬ ∀ (g : Generator) (args : KernelArgs) (ii2 : Nat), 1 ≤ ii2 →
    ∀ l, g.emit args ii2 = .ok l → l.Returns := by
  intro all
  have args : KernelArgs := ⟨0, 0, 0, ⟨0, 0, 0, 0, 0, 0, 0, 0, 0, 0, 0⟩⟩
  exact fmaProgram_not_returns (all .fma args 1024 (by decide) _ rfl)

end RadeonsiCompute
