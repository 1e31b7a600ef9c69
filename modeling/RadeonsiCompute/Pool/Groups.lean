import RadeonsiCompute.Pool.Abstract

/-!
# Fragments of one buffer stay together

`Stacked` says that the ranges after the reserved one are groups, one after
the other: each the ranges of all the fragments of one buffer, from the first
on, without a gap between them. Allocation cannot break a group up, since the
gap it uses is not empty, and freeing drops whole groups.
-/

namespace RadeonsiCompute

open Lib

/-- Groups of ranges, each of a buffer of `number` fragments. -/
inductive Stacked (number : BufPtr → Nat) : List PoolEntry → Prop
  | nil : Stacked number []
  | group {bo sizes last rest} : sizes.length = number bo → 0 < number bo → Stacked number rest →
      Stacked number (appendEntries bo 0 sizes last ++ rest)

namespace Stacked

variable {number number' : BufPtr → Nat} {l r : List PoolEntry}

/-- One more group behind the others. -/
theorem append (left : Stacked number l) (right : Stacked number r) : Stacked number (l ++ r) := by
  induction left with
  | nil => exact right
  | group full positive _ ih =>
      rw [List.append_assoc]
      exact .group full positive ih

theorem single {bo : BufPtr} {sizes : List Nat} {last : PoolEntry}
    (full : sizes.length = number bo) (positive : 0 < number bo) :
    Stacked number (appendEntries bo 0 sizes last) := by
  have one : Stacked number (appendEntries bo 0 sizes last ++ []) := .group full positive .nil
  rwa [List.append_nil] at one

/-- Only the buffers of the ranges count. -/
theorem congr (stacked : Stacked number l)
    (same : ∀ e ∈ l, number' e.parentBo = number e.parentBo) : Stacked number' l := by
  induction stacked with
  | nil => exact .nil
  | @group bo sizes last rest full positive _ ih =>
      have nonempty : appendEntries bo 0 sizes last ≠ [] :=
        appendEntries_ne_nil (full ▸ positive)
      obtain ⟨e, member⟩ := List.exists_mem_of_ne_nil _ nonempty
      have own : number' bo = number bo := by
        have := same e (List.mem_append_left _ member)
        rwa [appendEntries_parent member] at this
      refine .group (by rw [own]; exact full) (by rw [own]; exact positive) (ih ?_)
      intro e inRest
      exact same e (List.mem_append_right _ inRest)

/-- Where two neighbours are not contiguous, a group ends and another begins. -/
theorem split (stacked : Stacked number (l ++ r))
    (apart : ∀ x ∈ l.getLast?, ∀ y ∈ r.head?, y.va ≠ add64 x.va x.size) :
    Stacked number l ∧ Stacked number r := by
  generalize whole : l ++ r = pool at stacked
  induction stacked generalizing l with
  | nil =>
      obtain ⟨rfl, rfl⟩ := List.append_eq_nil_iff.mp whole
      exact ⟨.nil, .nil⟩
  | @group bo sizes last rest full positive stacked ih =>
      rcases List.append_eq_append_iff.mp whole with ⟨l', group, rfl⟩ | ⟨l', rfl, right⟩
      · -- the cut falls inside the group or before it
        cases l using List.reverseRecOn with
        | nil =>
            rw [List.nil_append] at group
            subst group
            exact ⟨.nil, .group full positive stacked⟩
        | append_singleton l x =>
            cases l' with
            | nil =>
                rw [List.append_nil] at group
                rw [← group]
                exact ⟨.single full positive, stacked⟩
            | cons y l' =>
                have chain := (@appendEntries_contiguous bo 0 sizes last).tail
                rw [List.tail_cons, group, List.append_assoc, List.singleton_append,
                  List.isChain_append_cons_cons] at chain
                exact absurd chain.2.1 (apart x (by simp) y (by simp))
      · -- the cut falls behind the group
        have later : ∀ x ∈ l'.getLast?, ∀ y ∈ r.head?, y.va ≠ add64 x.va x.size := by
          intro x isLast
          refine apart x ?_
          rw [List.getLast?_append]
          rw [Option.mem_def] at isLast
          simp [isLast]
        obtain ⟨left, right'⟩ := ih later right.symm
        exact ⟨.group full positive left, right'⟩

/-- Freeing a buffer drops its groups and no other. -/
theorem release (stacked : Stacked number l) (bo : BufPtr) :
    Stacked number (release bo l) := by
  induction stacked with
  | nil => exact .nil
  | @group bo' sizes last rest full positive _ ih =>
      unfold RadeonsiCompute.release at ih ⊢
      rw [List.filter_append]
      by_cases mine : bo' = bo
      · have gone : (appendEntries bo' 0 sizes last).filter (fun e => e.parentBo ≠ bo) = [] := by
          refine List.filter_eq_nil_iff.mpr fun e member => ?_
          simpa [mine] using (appendEntries_parent member).trans mine
        rw [gone, List.nil_append]
        exact ih
      · have kept : (appendEntries bo' 0 sizes last).filter (fun e => e.parentBo ≠ bo) =
            appendEntries bo' 0 sizes last := by
          refine List.filter_eq_self.mpr fun e member => ?_
          simpa [appendEntries_parent member] using mine
        rw [kept]
        exact .group full positive ih

/-- The ranges of neighbouring fragments are contiguous. -/
theorem adjacent (stacked : Stacked number l) {bo : BufPtr} {j : Nat} (hj : j + 1 < number bo)
    (some : ∃ e ∈ l, e.parentBo = bo) :
    ∃ x ∈ l, ∃ y ∈ l, x.bo = bo.add j ∧ y.bo = bo.add (j + 1) ∧ y.va = add64 x.va x.size := by
  induction stacked with
  | nil =>
      obtain ⟨e, member, -⟩ := some
      exact absurd member List.not_mem_nil
  | @group bo' sizes last rest full positive _ ih =>
      by_cases mine : bo' = bo
      · subst mine
        have first := @appendEntries_va bo' sizes 0 last j (by omega)
        have second := @appendEntries_va bo' sizes 0 last (j + 1) (by omega)
        rw [Nat.zero_add] at first second
        refine ⟨_, List.mem_append_left _ (List.mem_of_getElem? first), _,
          List.mem_append_left _ (List.mem_of_getElem? second), rfl, rfl, ?_⟩
        have part := List.sum_take_succ sizes j (by omega)
        simp only [add64, part]
        omega
      · obtain ⟨e, member, parent⟩ := some
        have later : ∃ e ∈ rest, e.parentBo = bo := by
          rcases List.mem_append.mp member with inGroup | inRest
          · exact absurd ((appendEntries_parent inGroup).symm.trans parent) mine
          · exact ⟨e, inRest, parent⟩
        obtain ⟨x, inX, y, inY, next⟩ := ih later
        exact ⟨x, List.mem_append_right _ inX, y, List.mem_append_right _ inY, next⟩

/-- The first range belongs to the first fragment of its buffer. -/
theorem head (stacked : Stacked number l) {e : PoolEntry} (first : l.head? = some e) :
    e.bo = e.parentBo := by
  cases stacked with
  | nil => exact absurd first (by simp)
  | @group bo sizes last rest full positive _ =>
      cases sizes with
      | nil => simp only [List.length_nil] at full; omega
      | cons size sizes =>
          obtain rfl : _ = e := by simpa [appendEntries] using first
          rfl

/-- A pool that an allocation adds a buffer to. -/
theorem place {bo : BufPtr} {b : GpuBuffer} {sizes : List Nat} {sentinel : PoolEntry}
    (stacked : Stacked number l) (ordered : PoolOrdered (sentinel :: l))
    (below : Below (sentinel :: l)) (full : sizes.length = number bo) (positive : 0 < number bo)
    (one : b.fragmentNumber = 1 → sizes = [b.vaSize]) :
    ∃ l', place bo b sizes (sentinel :: l) = sentinel :: l' ∧ Stacked number l' := by
  rcases place_cases bo b sizes (List.cons_ne_nil sentinel l) with
    ⟨l₁, n, next, l₂, split, isSingle, fits, -, result⟩ | ⟨l₁, n, split, -, result⟩
  · -- into the gap between `n` and `next`, which no group spans
    have new : Stacked number
        [{ va := add64 n.va n.size, size := b.vaSize, parentBo := bo, bo := bo }] := by
      have := @single number bo sizes n full positive
      rwa [one isSingle] at this
    rw [split] at ordered below
    have nBelow := below n (by simp)
    have nextBelow := below next (by simp)
    have gap := (gapFits_spec fits ordered.neighbours (by omega)).1
    have apart : next.va ≠ add64 n.va n.size := by
      rw [add64_of_lt nBelow]
      omega
    cases l₁ with
    | nil =>
        obtain ⟨rfl, rfl⟩ := List.cons.inj split
        exact ⟨_, result, new.append stacked⟩
    | cons x l₁ =>
        obtain ⟨rfl, rfl⟩ := List.cons.inj split
        have cut : l₁ ++ n :: next :: l₂ = (l₁ ++ [n]) ++ next :: l₂ := by simp
        have whole : Stacked number ((l₁ ++ [n]) ++ next :: l₂) := cut ▸ stacked
        obtain ⟨left, right⟩ := whole.split (by
          intro x isLast y isFirst
          obtain rfl : n = x := by simpa using isLast
          obtain rfl : next = y := by simpa using isFirst
          exact apart)
        refine ⟨_, result, ?_⟩
        have all := left.append (new.append right)
        simpa using all
  · cases l₁ with
    | nil =>
        obtain ⟨rfl, rfl⟩ := List.cons.inj split
        exact ⟨_, result, .single full positive⟩
    | cons x l₁ =>
        obtain ⟨rfl, rfl⟩ := List.cons.inj split
        refine ⟨_, result, ?_⟩
        have all := stacked.append (@single number bo sizes n full positive)
        simpa using all

end Stacked

end RadeonsiCompute
