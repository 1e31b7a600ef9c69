import Mathlib.Data.List.Basic
import Mathlib.Data.List.Nodup
import Mathlib.Tactic.Common

/-!
# Doubly linked lists

`Linked nx pv p l q` says that the `next` and `prev` fields, given as functions
on cells, run through `l` in order: the first cell's `prev` is `p`, the last
cell's `next` is `q`, and neighbours point at each other. The rules are the two
surgeries a program performs, inserting a cell after another and removing one,
together with framing. Each states the new links pointwise, so a caller can
discharge them whatever its heap looks like.
-/

namespace RadeonsiCompute.Lib

variable {α : Type} {nx pv nx' pv' : α → Option α}

/-- The links run through the list from predecessor `p` to successor `q`. -/
def Linked (nx pv : α → Option α) : Option α → List α → Option α → Prop
  | _, [], _ => True
  | p, a :: l, q => pv a = p ∧ nx a = l.head?.or q ∧ Linked nx pv (some a) l q

namespace Linked

/-- Links of other cells do not matter. -/
theorem congr {l : List α} (hn : ∀ a ∈ l, nx' a = nx a) (hp : ∀ a ∈ l, pv' a = pv a) :
    ∀ {p q : Option α}, Linked nx pv p l q → Linked nx' pv' p l q := by
  induction l with
  | nil => intro p q _; trivial
  | cons a l ih =>
      rintro p q ⟨hprev, hnext, rest⟩
      refine ⟨?_, ?_, ih ?_ ?_ rest⟩
      · rw [hp a List.mem_cons_self]; exact hprev
      · rw [hn a List.mem_cons_self]; exact hnext
      · intro b member; exact hn b (List.mem_cons_of_mem _ member)
      · intro b member; exact hp b (List.mem_cons_of_mem _ member)

/-- Splitting a list: each half ends where the other begins. -/
theorem append_iff {l₁ l₂ : List α} : ∀ {p q : Option α},
    Linked nx pv p (l₁ ++ l₂) q ↔
      Linked nx pv p l₁ (l₂.head?.or q) ∧ Linked nx pv (l₁.getLast?.or p) l₂ q := by
  induction l₁ with
  | nil => intro p q; simp [Linked]
  | cons a l ih =>
      intro p q
      have head : (l ++ l₂).head?.or q = l.head?.or (l₂.head?.or q) := by
        cases l <;> simp
      have last : ((a :: l).getLast?).or p = l.getLast?.or (some a) := by
        cases l <;> simp [List.getLast?_cons]
      simp only [List.cons_append, Linked, ih, head, last, and_assoc]

/-- Around one cell: what its own links are, and the two halves. -/
theorem append_cons_iff {l₁ l₂ : List α} {x : α} {p q : Option α} :
    Linked nx pv p (l₁ ++ x :: l₂) q ↔
      Linked nx pv p l₁ (some x) ∧ pv x = l₁.getLast?.or p ∧
        nx x = l₂.head?.or q ∧ Linked nx pv (some x) l₂ q := by
  rw [append_iff]
  simp [Linked]

/-- The successor of a cell in the middle of the list. -/
theorem next_eq {l₁ l₂ : List α} {x : α} {p : Option α}
    (h : Linked nx pv p (l₁ ++ x :: l₂) none) : nx x = l₂.head? := by
  simpa using (append_cons_iff.mp h).2.2.1

/-- The predecessor of a cell that follows another. -/
theorem prev_eq {l₁ l₂ : List α} {x n : α} {p q : Option α}
    (h : Linked nx pv p (l₁ ++ x :: n :: l₂) q) : pv n = some x :=
  (append_cons_iff.mp h).2.2.2.1

/-- The cells in order determine the links. -/
theorem unique {l : List α} : ∀ {p q : Option α}, Linked nx pv p l q → Linked nx' pv' p l q →
    ∀ a ∈ l, nx' a = nx a ∧ pv' a = pv a := by
  induction l with
  | nil => intro p q _ _ a member; exact absurd member (by simp)
  | cons b l ih =>
      rintro p q ⟨prev, next, rest⟩ ⟨prev', next', rest'⟩ a member
      rcases List.mem_cons.mp member with rfl | inRest
      · exact ⟨next'.trans next.symm, prev'.trans prev.symm⟩
      · exact ih rest rest' a inRest

/-- Insert a fresh cell after `x`. -/
theorem insertAfter {l₁ l₂ : List α} {x a : α} {p : Option α}
    (h : Linked nx pv p (l₁ ++ x :: l₂) none)
    (nodup : (l₁ ++ x :: l₂).Nodup)
    (nextNew : nx' a = nx x) (nextOld : nx' x = some a)
    (nextRest : ∀ b, b ∈ l₁ ++ l₂ → nx' b = nx b)
    (prevNew : pv' a = some x) (prevSucc : ∀ y, nx x = some y → pv' y = some a)
    (prevRest : ∀ b, b ∈ l₁ ++ x :: l₂ → nx x ≠ some b → pv' b = pv b) :
    Linked nx' pv' p (l₁ ++ x :: a :: l₂) none := by
  obtain ⟨left, prevX, nextX, right⟩ := append_cons_iff.mp h
  simp only [Option.or_none] at nextX
  have apart : ∀ b ∈ l₁, b ≠ x ∧ b ∉ l₂ := by
    intro b member
    have disjoint := (List.nodup_append.mp nodup).2.2
    exact ⟨disjoint b member x List.mem_cons_self,
      fun inRight => disjoint b member b (List.mem_cons_of_mem _ inRight) rfl⟩
  have xRight : x ∉ l₂ :=
    (List.nodup_cons.mp (List.nodup_append.mp nodup).2.1).1
  have notSucc : ∀ b, b ∉ l₂ → nx x ≠ some b := by
    intro b outside equal
    rw [nextX] at equal
    exact outside (List.mem_of_head? equal)
  refine append_cons_iff.mpr ⟨?_, ?_, ?_, prevNew, ?_, ?_⟩
  · refine left.congr ?_ ?_
    · intro b member; exact nextRest b (List.mem_append_left _ member)
    · intro b member
      exact prevRest b (List.mem_append_left _ member) (notSucc b (apart b member).2)
  · rw [prevRest x (by simp) (notSucc x xRight), prevX]
  · simpa using nextOld
  · rw [nextNew, nextX, Option.or_none]
  · -- only the first cell of the right half has a new predecessor
    cases l₂ with
    | nil => trivial
    | cons y l =>
        obtain ⟨_, nextY, rest⟩ := right
        refine ⟨prevSucc y (by simpa using nextX), ?_, rest.congr ?_ ?_⟩
        · rw [nextRest y (by simp), nextY]
        · intro b member; exact nextRest b (by simp [member])
        · intro b member
          refine prevRest b (by simp [member]) ?_
          rw [nextX]
          have distinct : y ≠ b := by
            have tailNodup := (List.nodup_cons.mp (List.nodup_append.mp nodup).2.1).2
            rintro rfl
            exact (List.nodup_cons.mp tailNodup).1 member
          simpa using distinct

/-- Remove the cell after `x`. -/
theorem removeAfter {l₁ l₂ : List α} {x n : α} {p : Option α}
    (h : Linked nx pv p (l₁ ++ x :: n :: l₂) none)
    (nodup : (l₁ ++ x :: n :: l₂).Nodup)
    (nextOld : nx' x = nx n) (nextRest : ∀ b, b ∈ l₁ ++ l₂ → nx' b = nx b)
    (prevSucc : ∀ y, nx n = some y → pv' y = some x)
    (prevRest : ∀ b, b ∈ l₁ ++ x :: l₂ → nx n ≠ some b → pv' b = pv b) :
    Linked nx' pv' p (l₁ ++ x :: l₂) none := by
  obtain ⟨left, prevX, _, _, nextN, right⟩ := append_cons_iff.mp h
  simp only [Option.or_none] at nextN
  have apart : ∀ b ∈ l₁, b ≠ x ∧ b ∉ l₂ := by
    intro b member
    have disjoint := (List.nodup_append.mp nodup).2.2
    exact ⟨disjoint b member x List.mem_cons_self,
      fun inRight => disjoint b member b (by simp [inRight]) rfl⟩
  have tailNodup := (List.nodup_append.mp nodup).2.1
  have xRight : x ∉ l₂ := by
    intro member
    exact (List.nodup_cons.mp tailNodup).1 (List.mem_cons_of_mem _ member)
  have notSucc : ∀ b, b ∉ l₂ → nx n ≠ some b := by
    intro b outside equal
    rw [nextN] at equal
    exact outside (List.mem_of_head? equal)
  refine append_cons_iff.mpr ⟨?_, ?_, ?_, ?_⟩
  · refine left.congr ?_ ?_
    · intro b member; exact nextRest b (List.mem_append_left _ member)
    · intro b member
      exact prevRest b (List.mem_append_left _ member) (notSucc b (apart b member).2)
  · rw [prevRest x (by simp) (notSucc x xRight), prevX]
  · rw [nextOld, nextN, Option.or_none]
  · cases l₂ with
    | nil => trivial
    | cons y l =>
        obtain ⟨_, nextY, rest⟩ := right
        refine ⟨prevSucc y (by simpa using nextN), ?_, rest.congr ?_ ?_⟩
        · rw [nextRest y (by simp), nextY]
        · intro b member; exact nextRest b (by simp [member])
        · intro b member
          refine prevRest b (by simp [member]) ?_
          rw [nextN]
          have distinct : y ≠ b := by
            have rightNodup := (List.nodup_cons.mp (List.nodup_cons.mp tailNodup).2).2
            rintro rfl
            exact (List.nodup_cons.mp rightNodup).1 member
          simpa using distinct

end Linked

end RadeonsiCompute.Lib
