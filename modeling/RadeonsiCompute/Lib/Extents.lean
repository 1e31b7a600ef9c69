import Mathlib.Data.List.Chain
import Mathlib.Order.CompletePartialOrder
import Mathlib.Order.Interval.Set.Basic
import Mathlib.Order.Interval.Set.Disjoint
import Mathlib.Tactic.Common

/-!
# Address ranges in increasing order

Lists of half-open ranges `[start, start + len)` laid out in increasing address
order, each ending before the next one starts. A chain of neighbours in that
order is ordered throughout, so the rules for inserting a range in a gap and
for extending the end only look at neighbours.
-/

namespace RadeonsiCompute.Lib

variable {α : Type} (start len : α → Nat)

/-- Range `a` ends at or before the start of `b`. -/
def Before (a b : α) : Prop := start a + len a ≤ start b

instance : Trans (Before start len) (Before start len) (Before start len) where
  trans {a b c} hab hbc := by
    unfold Before at *
    omega

/-- The addresses of a range. -/
def extent (a : α) : Set Nat := Set.Ico (start a) (start a + len a)

/-- Ranges in increasing address order without overlap. -/
def Ordered (l : List α) : Prop := l.Pairwise (Before start len)

namespace Ordered

variable {start len}

theorem iff_isChain {l : List α} : Ordered start len l ↔ l.IsChain (Before start len) :=
  List.isChain_iff_pairwise.symm

theorem sublist {l l' : List α} (h : Ordered start len l) (sub : l'.Sublist l) :
    Ordered start len l' := List.Pairwise.sublist sub h

/-- Ranges that are not empty start at increasing addresses. -/
theorem start_lt {l : List α} (h : Ordered start len l) (pos : ∀ a ∈ l, 0 < len a) :
    l.Pairwise fun a b => start a < start b := by
  refine List.Pairwise.imp_of_mem ?_ h
  intro a b ha _ before
  have := pos a ha
  unfold Before at before
  omega

/-- Distinct ranges share no address. -/
theorem disjoint {l : List α} (h : Ordered start len l) :
    l.Pairwise fun a b => Disjoint (extent start len a) (extent start len b) := by
  refine List.Pairwise.imp ?_ h
  intro a b before
  exact Set.Ico_disjoint_Ico_same.mono_right (Set.Ico_subset_Ico_left before)

/-- Ranges that share an address are the same. -/
theorem eq_of_mem {l : List α} (h : Ordered start len l) {a b : α} (ha : a ∈ l) (hb : b ∈ l)
    {x : Nat} (inA : x ∈ extent start len a) (inB : x ∈ extent start len b) : a = b := by
  by_contra differ
  have symm : Std.Symm fun a b => Disjoint (extent start len a) (extent start len b) :=
    ⟨fun _ _ apart => apart.symm⟩
  have apart := h.disjoint.forall ha hb differ
  exact Set.disjoint_left.mp apart inA inB

/-- Neighbours in the middle of an ordered list. -/
theorem neighbours {l₁ l₂ : List α} {n m : α}
    (h : Ordered start len (l₁ ++ n :: m :: l₂)) : Before start len n m :=
  (List.pairwise_cons.mp (List.pairwise_append.mp h).2.1).1 m List.mem_cons_self

/-- A range that fits between two neighbours can be put there. -/
theorem insert {l₁ l₂ : List α} {n a m : α}
    (h : Ordered start len (l₁ ++ n :: m :: l₂))
    (hna : Before start len n a) (ham : Before start len a m) :
    Ordered start len (l₁ ++ n :: a :: m :: l₂) := by
  rw [iff_isChain] at h ⊢
  rw [List.isChain_append_cons_cons] at h ⊢
  exact ⟨h.1, hna, List.isChain_cons_cons.mpr ⟨ham, h.2.2⟩⟩

/-- A chain that starts at the last range extends the list. -/
theorem extend {l news : List α} {n : α} (h : Ordered start len (l ++ [n]))
    (chain : (n :: news).IsChain (Before start len)) :
    Ordered start len (l ++ n :: news) := by
  rw [iff_isChain] at h ⊢
  exact List.isChain_split.mpr ⟨h, chain⟩

end Ordered

end RadeonsiCompute.Lib
