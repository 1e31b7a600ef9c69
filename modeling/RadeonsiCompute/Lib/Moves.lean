import Mathlib.Algebra.GroupWithZero.Nat
import Mathlib.Data.List.Basic
import Mathlib.Tactic.Common

/-!
# Copying in pieces

A `Move` copies a run of cells from one memory, or one place of a memory, to
another. A list of moves that tile a range, each starting where the one before
ended at both sides, does what a single move of the whole range does; inside
one memory this needs the source range to be clear of the destination range.
-/

namespace RadeonsiCompute.Lib

/-- Copy `len` cells from `src` on to `dst` on. -/
structure Move where
  dst : Nat
  src : Nat
  len : Nat
  deriving DecidableEq, Repr

namespace Move

variable {β : Type}

/-- Memory `old` after the move from memory `source`. -/
def into (m : Move) (old source : Nat → β) : Nat → β := fun a =>
  if m.dst ≤ a ∧ a < m.dst + m.len then source (m.src + (a - m.dst)) else old a

/-- The move the other way. -/
def swap (m : Move) : Move := { dst := m.src, src := m.dst, len := m.len }

/-- The move inside one memory. -/
def exec (m : Move) (mem : Nat → β) : Nat → β := m.into mem mem

theorem into_of_mem {m : Move} {a : Nat} (old source : Nat → β) (lo : m.dst ≤ a)
    (hi : a < m.dst + m.len) : m.into old source a = source (m.src + (a - m.dst)) :=
  if_pos ⟨lo, hi⟩

theorem into_of_notMem {m : Move} {a : Nat} (old source : Nat → β)
    (outside : ¬ (m.dst ≤ a ∧ a < m.dst + m.len)) : m.into old source a = old a :=
  if_neg outside

/-- What a cell holds afterwards depends on what that cell held before. -/
theorem into_congr {m : Move} {old old' source : Nat → β} {a : Nat} (same : old a = old' a) :
    m.into old source a = m.into old' source a := by
  unfold into
  rw [same]

/-- So after several moves from one memory. -/
theorem foldl_into_congr {source : Nat → β} {a : Nat} (ms : List Move) :
    ∀ {old old' : Nat → β}, old a = old' a →
      ms.foldl (fun mem m => m.into mem source) old a =
        ms.foldl (fun mem m => m.into mem source) old' a := by
  induction ms with
  | nil => intro old old' same; exact same
  | cons m ms ih =>
      intro old old' same
      exact ih (into_congr same)

@[simp] theorem into_zero (dst src : Nat) (old source : Nat → β) :
    (Move.mk dst src 0).into old source = old := by
  funext a
  exact into_of_notMem _ _ (by simp)

/-- A cell of the destination, after a move inside one memory. -/
theorem exec_add {dst src len i : Nat} (mem : Nat → β) (hi : i < len) :
    (Move.mk dst src len).exec mem (dst + i) = mem (src + i) := by
  have inside : dst + i < dst + len := Nat.add_lt_add_left hi dst
  rw [exec, @into_of_mem _ (Move.mk dst src len) _ _ _ (Nat.le_add_right dst i) inside]
  show mem (src + (dst + i - dst)) = _
  rw [Nat.add_sub_cancel_left]

theorem exec_of_notMem {dst src len a : Nat} (mem : Nat → β)
    (outside : ¬ (dst ≤ a ∧ a < dst + len)) : (Move.mk dst src len).exec mem a = mem a :=
  into_of_notMem _ _ outside

end Move

/-- Where each cell goes to and comes from, in the order of the moves. -/
def cellMoves (ms : List Move) : List (Nat × Nat) :=
  ms.flatMap fun m => (List.range m.len).map fun i => (m.dst + i, m.src + i)

theorem length_cellMoves (ms : List Move) : (cellMoves ms).length = (ms.map Move.len).sum := by
  rw [cellMoves, List.length_flatMap]
  simp

/-- The moves cover `len` cells in order, without gap or overlap. -/
inductive Tiles : List Move → Nat → Nat → Nat → Prop
  | nil {dst src} : Tiles [] dst src 0
  | cons {m ms len} : Tiles ms (m.dst + m.len) (m.src + m.len) len →
      Tiles (m :: ms) m.dst m.src (m.len + len)

namespace Tiles

variable {β : Type} {ms : List Move} {dst src len : Nat}

theorem swap (tiles : Tiles ms dst src len) : Tiles (ms.map Move.swap) src dst len := by
  induction tiles with
  | nil => exact .nil
  | @cons m ms len _ ih => exact .cons (m := m.swap) ih

/-- Every piece stays within the range at both ends. -/
theorem bounds (tiles : Tiles ms dst src len) : ∀ m ∈ ms,
    dst ≤ m.dst ∧ m.dst + m.len ≤ dst + len ∧ src ≤ m.src ∧ m.src + m.len ≤ src + len := by
  induction tiles with
  | nil => intro m member; exact absurd member (by simp)
  | @cons m ms len _ ih =>
      intro m' member
      rcases List.mem_cons.mp member with rfl | later
      · omega
      · have := ih m' later
        omega

/-- Every cell of the range is written by one piece, and no other cell is. -/
theorem countP_covers (tiles : Tiles ms dst src len) (a : Nat) :
    ms.countP (fun m => decide (m.dst ≤ a ∧ a < m.dst + m.len)) =
      if dst ≤ a ∧ a < dst + len then 1 else 0 := by
  induction tiles with
  | nil => simp
  | @cons m ms len _ ih =>
      simp only [List.countP_cons, ih, decide_eq_true_eq]
      by_cases first : m.dst ≤ a ∧ a < m.dst + m.len
      · rw [if_neg (by omega), if_pos first, if_pos (by omega)]
      · rw [if_neg first]
        by_cases later : m.dst + m.len ≤ a ∧ a < m.dst + m.len + len
        · rw [if_pos later, if_pos (by omega)]
        · rw [if_neg later, if_neg (by omega)]

/-- Every cell of the range is in a piece. -/
theorem exists_covers (tiles : Tiles ms dst src len) {a : Nat} (lo : dst ≤ a) (hi : a < dst + len) :
    ∃ m ∈ ms, m.dst ≤ a ∧ a < m.dst + m.len := by
  have covers := tiles.countP_covers a
  rw [if_pos ⟨lo, hi⟩] at covers
  obtain ⟨m, member, inside⟩ := List.countP_pos_iff.mp (by rw [covers]; exact Nat.one_pos)
  exact ⟨m, member, of_decide_eq_true inside⟩

theorem sum_len (tiles : Tiles ms dst src len) : (ms.map Move.len).sum = len := by
  induction tiles with
  | nil => rfl
  | cons _ ih => rw [List.map_cons, List.sum_cons, ih]

/-- Moving the pieces from another memory moves the range. -/
theorem foldl_into (tiles : Tiles ms dst src len) (source : Nat → β) (old : Nat → β) :
    ms.foldl (fun mem m => m.into mem source) old =
      (Move.mk dst src len).into old source := by
  induction tiles generalizing old with
  | nil => exact (Move.into_zero _ _ _ _).symm
  | @cons m ms len _ ih =>
      rw [List.foldl_cons, ih]
      funext a
      simp only [Move.into]
      by_cases first : m.dst ≤ a ∧ a < m.dst + m.len
      · rw [if_neg (by omega), if_pos first, if_pos (by omega)]
      · by_cases later : m.dst + m.len ≤ a ∧ a < m.dst + m.len + len
        · rw [if_pos later, if_pos (by omega)]
          congr 1
          omega
        · rw [if_neg later, if_neg first, if_neg (by omega)]

/-- Moves inside one memory whose destinations are clear of the sources read
what the memory held at the start. -/
theorem foldl_exec_eq (clear : src + len ≤ dst ∨ dst + len ≤ src) {mem : Nat → β} (ms : List Move) :
    ∀ now : Nat → β,
      (∀ m ∈ ms, dst ≤ m.dst ∧ m.dst + m.len ≤ dst + len ∧ src ≤ m.src ∧
        m.src + m.len ≤ src + len) →
      (∀ a, src ≤ a → a < src + len → now a = mem a) →
      ms.foldl (fun mem m => m.exec mem) now = ms.foldl (fun now m => m.into now mem) now := by
  induction ms with
  | nil => intro now _ _; rfl
  | cons m ms ih =>
      intro now inside same
      obtain ⟨lo, hi, slo, shi⟩ := inside m List.mem_cons_self
      have step : m.exec now = m.into now mem := by
        funext a
        by_cases member : m.dst ≤ a ∧ a < m.dst + m.len
        · rw [Move.exec, Move.into_of_mem _ _ member.1 member.2,
            Move.into_of_mem _ _ member.1 member.2]
          exact same _ (by omega) (by omega)
        · rw [Move.exec, Move.into_of_notMem _ _ member, Move.into_of_notMem _ _ member]
      rw [List.foldl_cons, List.foldl_cons, step]
      refine ih _ (fun m' later => inside m' (List.mem_cons_of_mem _ later)) ?_
      -- the move wrote nothing of the source
      intro a alo ahi
      rw [Move.into_of_notMem _ _ (by omega)]
      exact same a alo ahi

/-- Moving the pieces inside one memory moves the range, when the source is
clear of the destination. -/
theorem foldl_exec (tiles : Tiles ms dst src len) (clear : src + len ≤ dst ∨ dst + len ≤ src)
    (mem : Nat → β) : ms.foldl (fun mem m => m.exec mem) mem = (Move.mk dst src len).exec mem := by
  rw [foldl_exec_eq clear ms mem tiles.bounds (fun _ _ _ => rfl), tiles.foldl_into]
  rfl

end Tiles

/-! ## Cutting a range -/

/-- The pieces of a range of `len` cells from cell `i` on, each as its start
and its length: full pieces of `k + 1` cells and what is left. -/
def pieces (k i len : Nat) : List (Nat × Nat) :=
  if len = 0 then []
  else (i, min (k + 1) len) :: pieces k (i + min (k + 1) len) (len - min (k + 1) len)
  termination_by len
  decreasing_by omega

section Pieces

variable {k i len : Nat}

theorem pieces_zero : pieces k i 0 = [] := by
  rw [pieces, if_pos rfl]

theorem pieces_pos (positive : len ≠ 0) : pieces k i len =
    (i, min (k + 1) len) :: pieces k (i + min (k + 1) len) (len - min (k + 1) len) := by
  rw [pieces, if_neg positive]

/-- The pieces tile the range. -/
theorem pieces_tiles (dst src : Nat) :
    Tiles ((pieces k i len).map fun p => ⟨dst + p.1, src + p.1, p.2⟩) (dst + i) (src + i) len := by
  induction i, len using pieces.induct k with
  | case1 i =>
      rw [pieces_zero]
      exact .nil
  | case2 i len positive ih =>
      rw [pieces_pos positive, List.map_cons]
      have split : min (k + 1) len + (len - min (k + 1) len) = len := by omega
      have step := @Tiles.cons ⟨dst + i, src + i, min (k + 1) len⟩ _ _ (by
        rw [Nat.add_assoc, Nat.add_assoc]
        exact ih)
      rw [split] at step
      exact step

/-- Where a piece lies. Its start is a whole number of full pieces away. -/
theorem pieces_mem : ∀ p ∈ pieces k i len,
    0 < p.2 ∧ p.2 ≤ k + 1 ∧ i ≤ p.1 ∧ p.1 + p.2 ≤ i + len ∧ k + 1 ∣ p.1 - i ∧
      (p.2 = k + 1 ∨ p.1 + p.2 = i + len) := by
  induction i, len using pieces.induct k with
  | case1 i =>
      intro p member
      rw [pieces_zero] at member
      exact absurd member (by simp)
  | case2 i len positive ih =>
      intro p member
      rw [pieces_pos positive] at member
      rcases List.mem_cons.mp member with rfl | later
      · refine ⟨by dsimp only; omega, by dsimp only; omega, Nat.le_refl _, by dsimp only; omega,
          by rw [Nat.sub_self]; exact Nat.dvd_zero _, ?_⟩
        dsimp only
        omega
      · obtain ⟨some, capped, start, stop, ⟨q, away⟩, full⟩ := ih p later
        -- only a range longer than a piece leaves anything
        have long : min (k + 1) len = k + 1 := by omega
        rw [long] at start stop away full
        refine ⟨some, capped, by omega, by omega, ⟨q + 1, ?_⟩, by omega⟩
        rw [Nat.mul_succ]
        omega

/-- The first piece starts the range, and no other does. -/
theorem pieces_first (positive : len ≠ 0) : ∃ p rest, pieces k i len = p :: rest ∧ p.1 = i ∧
    ∀ p' ∈ rest, p'.1 ≠ i := by
  refine ⟨_, _, pieces_pos positive, rfl, fun p' member => ?_⟩
  have start := (pieces_mem p' member).2.2.1
  omega

/-- The last piece ends the range, and no other does. -/
theorem pieces_last : len ≠ 0 → ∃ init p, pieces k i len = init ++ [p] ∧
    p.1 + p.2 = i + len ∧ ∀ p' ∈ init, p'.1 + p'.2 < i + len := by
  induction i, len using pieces.induct k with
  | case1 i => intro positive; exact absurd rfl positive
  | case2 i len positive ih =>
      intro _
      rw [pieces_pos positive]
      by_cases whole : len ≤ k + 1
      · have rest : len - min (k + 1) len = 0 := by omega
        rw [rest, pieces_zero]
        refine ⟨[], _, rfl, ?_, fun p' member => absurd member (by simp)⟩
        dsimp only
        omega
      · obtain ⟨init, p, split, stop, before⟩ := ih (by omega)
        refine ⟨(i, min (k + 1) len) :: init, p, by rw [split]; rfl, by omega, ?_⟩
        intro p' member
        rcases List.mem_cons.mp member with rfl | later
        · dsimp only
          omega
        · have := before p' later
          omega

/-- The first piece, by its place in the list. -/
theorem pieces_start_iff {n : Nat} (hn : n < (pieces k i len).length) :
    (pieces k i len)[n].1 = i ↔ n = 0 := by
  have positive : len ≠ 0 := by
    rintro rfl
    rw [pieces_zero] at hn
    exact absurd hn (by simp)
  obtain ⟨p, rest, split, start, others⟩ := @pieces_first k i len positive
  generalize pieces k i len = ps at hn split ⊢
  subst split
  cases n with
  | zero => simp [start]
  | succ n => simpa using others _ (List.getElem_mem _)

/-- The last piece, by its place in the list. -/
theorem pieces_stop_iff {n : Nat} (hn : n < (pieces k i len).length) :
    (pieces k i len)[n].1 + (pieces k i len)[n].2 = i + len ↔
      n + 1 = (pieces k i len).length := by
  have positive : len ≠ 0 := by
    rintro rfl
    rw [pieces_zero] at hn
    exact absurd hn (by simp)
  obtain ⟨init, p, split, stop, others⟩ := @pieces_last k i len positive
  generalize pieces k i len = ps at hn split ⊢
  subst split
  rw [List.length_append, List.length_singleton] at hn ⊢
  rcases Nat.lt_or_ge n init.length with before | last
  · have short := others _ (List.getElem_mem before)
    rw [List.getElem_append_left before]
    omega
  · obtain rfl : n = init.length := by omega
    simp [stop]

end Pieces

end RadeonsiCompute.Lib
