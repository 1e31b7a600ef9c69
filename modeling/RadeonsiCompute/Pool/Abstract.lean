import RadeonsiCompute.Lib.Extents
import RadeonsiCompute.Pool.Code

/-!
# The VA pool as a list of ranges

What the pool is for, without links or heap: an ordered list of disjoint VA
ranges, each owned by a fragment of a buffer. `place` gives a single-fragment
buffer the first gap that is large enough and otherwise appends one range for
each fragment at the tail; `release` drops the ranges of a buffer. Both keep
the order as long as no address passes 2^64.
-/

namespace RadeonsiCompute

open Lib

/-- Ranges for the fragments from index `i` on, each after the one before. -/
def appendEntries (bo : BufPtr) : Nat → List Nat → PoolEntry → List PoolEntry
  | _, [], _ => []
  | i, size :: sizes, last =>
      let e : PoolEntry :=
        { va := add64 last.va last.size, size, parentBo := bo, bo := bo.add i }
      e :: appendEntries bo (i + 1) sizes e

/-- Ranges for the fragments of buffer `bo`, whose first fragment is `b` and
whose fragments have the given sizes, added to a pool. -/
def place (bo : BufPtr) (b : GpuBuffer) (sizes : List Nat) : List PoolEntry → List PoolEntry
  | [] => []
  | [n] => n :: appendEntries bo 0 sizes n
  | n :: next :: rest =>
      if b.fragmentNumber = 1 ∧ gapFits b n next = true then
        n :: { va := add64 n.va n.size, size := b.vaSize, parentBo := bo, bo } :: next :: rest
      else n :: place bo b sizes (next :: rest)

/-- The ranges of every other buffer. -/
def release (bo : BufPtr) (pool : List PoolEntry) : List PoolEntry :=
  pool.filter fun e => e.parentBo ≠ bo

/-- Every range ends below 2^64. -/
def Below (pool : List PoolEntry) : Prop := ∀ e ∈ pool, e.va + e.size < 2 ^ 64

instance (pool : List PoolEntry) : Decidable (Below pool) :=
  inferInstanceAs (Decidable (∀ e ∈ pool, e.va + e.size < 2 ^ 64))

/-- Pool ranges in address order. -/
abbrev PoolOrdered (pool : List PoolEntry) : Prop :=
  Ordered PoolEntry.va PoolEntry.size pool

/-! ## Appended ranges -/

section Append

variable {bo : BufPtr}

@[simp] theorem appendEntries_length (i : Nat) (sizes : List Nat) (last : PoolEntry) :
    (appendEntries bo i sizes last).length = sizes.length := by
  induction sizes generalizing i last with
  | nil => rfl
  | cons size sizes ih => simp [appendEntries, ih]

theorem appendEntries_ne_nil {i : Nat} {sizes : List Nat} {last : PoolEntry}
    (some : 0 < sizes.length) : appendEntries bo i sizes last ≠ [] :=
  List.ne_nil_of_length_pos (by rwa [appendEntries_length])

/-- Fragment `j` gets the range numbered `j`. -/
theorem appendEntries_bos (i : Nat) (sizes : List Nat) (last : PoolEntry) :
    (appendEntries bo i sizes last).map PoolEntry.bo =
      (List.range' i sizes.length).map bo.add := by
  induction sizes generalizing i last with
  | nil => rfl
  | cons size sizes ih => simp [appendEntries, ih, List.range'_succ]

theorem appendEntries_sizes (i : Nat) (sizes : List Nat) (last : PoolEntry) :
    (appendEntries bo i sizes last).map PoolEntry.size = sizes := by
  induction sizes generalizing i last with
  | nil => rfl
  | cons size sizes ih => simp [appendEntries, ih]

theorem appendEntries_parent {i : Nat} {sizes : List Nat} {last e : PoolEntry}
    (member : e ∈ appendEntries bo i sizes last) : e.parentBo = bo := by
  induction sizes generalizing i last with
  | nil => simp [appendEntries] at member
  | cons size sizes ih =>
      rcases List.mem_cons.mp member with rfl | inRest
      · rfl
      · exact ih inRest

/-- The appended ranges form one contiguous stretch after the last range. -/
theorem appendEntries_contiguous (i : Nat) (sizes : List Nat) (last : PoolEntry) :
    (last :: appendEntries bo i sizes last).IsChain
      fun e e' => e'.va = add64 e.va e.size := by
  induction sizes generalizing i last with
  | nil => exact List.isChain_singleton last
  | cons size sizes ih =>
      exact List.isChain_cons_cons.mpr ⟨rfl, ih (i + 1) _⟩

/-- While no range reaches 2^64, appending keeps the address order. -/
theorem appendEntries_chain {i : Nat} {sizes : List Nat} {last : PoolEntry}
    (below : Below (last :: appendEntries bo i sizes last)) :
    (last :: appendEntries bo i sizes last).IsChain (Before PoolEntry.va PoolEntry.size) := by
  refine List.IsChain.imp_of_mem_imp ?_ (appendEntries_contiguous i sizes last)
  intro e e' he _ contiguous
  rw [add64_of_lt (below e he)] at contiguous
  exact contiguous.ge

/-- Appended ranges start one after the other, modulo 2^64. -/
theorem appendEntries_va {bo : BufPtr} {sizes : List Nat} (i : Nat) {last : PoolEntry} {j : Nat}
    (hj : j < sizes.length) :
    (appendEntries bo i sizes last)[j]? =
      some { va := (last.va + last.size + (sizes.take j).sum) % 2 ^ 64, size := sizes[j],
             parentBo := bo, bo := bo.add (i + j) } := by
  induction sizes generalizing i last j with
  | nil => exact absurd hj (by simp)
  | cons size sizes ih =>
      cases j with
      | zero => simp [appendEntries, add64]
      | succ j =>
          have next := @ih (i + 1)
            { va := add64 last.va last.size, size, parentBo := bo, bo := bo.add i } j
            (by simpa using hj)
          rw [appendEntries, List.getElem?_cons_succ, next]
          have wrap : (add64 last.va last.size + size + (sizes.take j).sum) % 2 ^ 64 =
              (last.va + last.size + ((size :: sizes).take (j + 1)).sum) % 2 ^ 64 := by
            rw [List.take_succ_cons, List.sum_cons]
            unfold add64
            omega
          rw [wrap]
          simp only [List.getElem_cons_succ, Nat.add_assoc, Nat.add_comm 1 j]

/-- With room for all of them below 2^64, the appended ranges start one after
the other, each at the sum of the sizes before it. -/
theorem appendEntries_getElem {sizes : List Nat} {last : PoolEntry} (i : Nat)
    (room : last.va + last.size + sizes.sum < 2 ^ 64) {j : Nat} (hj : j < sizes.length) :
    (appendEntries bo i sizes last)[j]? =
      some { va := last.va + last.size + (sizes.take j).sum, size := sizes[j], parentBo := bo,
             bo := bo.add (i + j) } := by
  have part := List.sum_take_add_sum_drop sizes j
  rw [appendEntries_va i hj, Nat.mod_eq_of_lt (by omega)]

theorem appendEntries_le {i : Nat} {sizes : List Nat} {last e : PoolEntry}
    (room : last.va + last.size + sizes.sum < 2 ^ 64)
    (member : e ∈ appendEntries bo i sizes last) :
    e.va + e.size ≤ last.va + last.size + sizes.sum := by
  induction sizes generalizing i last with
  | nil => exact absurd member (by simp [appendEntries])
  | cons size sizes ih =>
      rw [List.sum_cons] at room ⊢
      have start : add64 last.va last.size = last.va + last.size := add64_of_lt (by omega)
      rcases List.mem_cons.mp member with rfl | inRest
      · dsimp only
        omega
      · have bound := ih (by dsimp only; omega) inRest
        dsimp only at bound
        omega

end Append

/-! ## What an allocation can do -/

/-- The two ways an allocation goes: into the first gap that fits, or behind
the last range when no gap fits or the buffer has several fragments. -/
theorem place_cases (bo : BufPtr) (b : GpuBuffer) (sizes : List Nat) {pool : List PoolEntry}
    (nonempty : pool ≠ []) :
    (∃ l₁ n next l₂, pool = l₁ ++ n :: next :: l₂ ∧ b.fragmentNumber = 1 ∧
      gapFits b n next = true ∧ (l₁ ++ [n]).IsChain (fun x y => gapFits b x y = false) ∧
      place bo b sizes pool =
        l₁ ++ n :: { va := add64 n.va n.size, size := b.vaSize, parentBo := bo, bo } ::
          next :: l₂) ∨
    (∃ l n, pool = l ++ [n] ∧
      (b.fragmentNumber = 1 → pool.IsChain fun x y => gapFits b x y = false) ∧
      place bo b sizes pool = l ++ n :: appendEntries bo 0 sizes n) := by
  induction pool with
  | nil => exact absurd rfl nonempty
  | cons n rest ih =>
      cases rest with
      | nil => exact .inr ⟨[], n, rfl, fun _ => List.isChain_singleton n, rfl⟩
      | cons next rest =>
          by_cases fits : b.fragmentNumber = 1 ∧ gapFits b n next = true
          · refine .inl ⟨[], n, next, rest, rfl, fits.1, fits.2, List.isChain_singleton n, ?_⟩
            simp [place, fits]
          · have step : place bo b sizes (n :: next :: rest) =
                n :: place bo b sizes (next :: rest) := by
              simp only [place, if_neg fits]
            have miss : b.fragmentNumber = 1 → gapFits b n next = false := by
              intro single
              by_contra fit
              exact fits ⟨single, by simpa using fit⟩
            rcases ih (by simp) with
              ⟨l₁, m, m', l₂, split, single, fit, earlier, result⟩ | ⟨l, m, split, none, result⟩
            · refine .inl ⟨n :: l₁, m, m', l₂, by simp [split], single, fit, ?_, ?_⟩
              · cases l₁ with
                | nil =>
                    obtain rfl : next = m := by simpa using congrArg List.head? split
                    exact List.isChain_cons_cons.mpr ⟨miss single, earlier⟩
                | cons x l₁ =>
                    obtain rfl : next = x := by simpa using congrArg List.head? split
                    exact List.isChain_cons_cons.mpr ⟨miss single, earlier⟩
              · rw [step, result, List.cons_append]
            · refine .inr ⟨n :: l, m, by simp [split], ?_, ?_⟩
              · intro single
                exact List.isChain_cons_cons.mpr ⟨miss single, none single⟩
              · rw [step, result, List.cons_append]

/-- What every old range has and every range behind such a range gets, all
ranges have. -/
theorem place_forall {P : PoolEntry → Prop} {bo : BufPtr} {b : GpuBuffer} {sizes : List Nat}
    {pool : List PoolEntry} (old : ∀ e ∈ pool, P e)
    (next : ∀ n, P n → ∀ size, size = b.vaSize ∨ size ∈ sizes → ∀ p,
      P { va := add64 n.va n.size, size, parentBo := bo, bo := p }) :
    ∀ e ∈ place bo b sizes pool, P e := by
  have appended : ∀ (sizes' : List Nat) (i : Nat) (last : PoolEntry), P last →
      (∀ size ∈ sizes', size ∈ sizes) → ∀ e ∈ appendEntries bo i sizes' last, P e := by
    intro sizes'
    induction sizes' with
    | nil => intro i last _ _ e member; simp [appendEntries] at member
    | cons size sizes' ih =>
        intro i last holds within e member
        have here := next last holds size (.inr (within size List.mem_cons_self)) (bo.add i)
        rcases List.mem_cons.mp member with rfl | inRest
        · exact here
        · exact ih (i + 1) _ here (fun s hs => within s (List.mem_cons_of_mem _ hs)) e inRest
  by_cases empty : pool = []
  · subst empty; intro e member; simp [place] at member
  rcases place_cases bo b sizes empty with
    ⟨l₁, n, m, l₂, split, -, -, -, result⟩ | ⟨l, n, split, -, result⟩
  · intro e member
    simp only [result, List.mem_append, List.mem_cons] at member
    rcases member with h | rfl | rfl | rfl | h
    · exact old e (by simp [split, h])
    · exact old e (by simp [split])
    · exact next n (old n (by simp [split])) b.vaSize (.inl rfl) bo
    · exact old e (by simp [split])
    · exact old e (by simp [split, h])
  · intro e member
    simp only [result, List.mem_append, List.mem_cons] at member
    rcases member with h | rfl | h
    · exact old e (by simp [split, h])
    · exact old e (by simp [split])
    · exact appended sizes 0 n (old n (by simp [split])) (fun _ hs => hs) e h

/-! ## Order -/

/-- A gap that fits lies between the two ranges with room to spare. -/
theorem gapFits_spec {b : GpuBuffer} {n next : PoolEntry} (fits : gapFits b n next = true)
    (order : Before PoolEntry.va PoolEntry.size n next) (below : next.va < 2 ^ 64) :
    n.va + n.size + b.vaSize < next.va ∧ b.alignment ≤ 4096 := by
  simp only [gapFits, Bool.and_eq_true, decide_eq_true_eq] at fits
  obtain ⟨room, align⟩ := fits
  unfold Before at order
  rw [sub64_of_le below (by omega), sub64_of_le (by omega) (by omega)] at room
  exact ⟨by omega, align⟩

/-- Old ranges stay, in the same order. -/
theorem sublist_place (bo : BufPtr) (b : GpuBuffer) (sizes : List Nat) (pool : List PoolEntry) :
    pool.Sublist (place bo b sizes pool) := by
  by_cases empty : pool = []
  · subst empty; exact List.nil_sublist _
  · rcases place_cases bo b sizes empty with
      ⟨l₁, n, next, l₂, split, -, -, -, result⟩ | ⟨l, n, split, -, result⟩
    · rw [result, split]
      refine List.Sublist.append_left ?_ l₁
      exact (List.sublist_cons_self _ _).cons_cons n
    · rw [result, split]
      refine List.Sublist.append_left ?_ l
      exact (List.nil_sublist _).cons_cons n

theorem place_ordered {bo : BufPtr} {b : GpuBuffer} {sizes : List Nat} {pool : List PoolEntry}
    (ordered : PoolOrdered pool) (below : Below (place bo b sizes pool)) :
    PoolOrdered (place bo b sizes pool) := by
  by_cases empty : pool = []
  · subst empty; exact List.Pairwise.nil
  have oldBelow : Below pool := fun e member => below e ((sublist_place bo b sizes pool).subset member)
  rcases place_cases bo b sizes empty with
    ⟨l₁, n, next, l₂, split, -, fits, -, result⟩ | ⟨l, n, split, -, result⟩
  · rw [split] at ordered oldBelow
    have nBelow := oldBelow n (by simp)
    have nextBelow := oldBelow next (by simp)
    have room := gapFits_spec fits ordered.neighbours (by omega)
    rw [result]
    refine ordered.insert ?_ ?_
    · simp only [Before, add64_of_lt nBelow, le_refl]
    · simp only [Before, add64_of_lt nBelow]
      omega
  · rw [result] at below ⊢
    rw [split] at ordered
    refine ordered.extend (appendEntries_chain ?_)
    intro e member
    exact below e (List.mem_append_right _ member)

/-- The first address behind every range. -/
def poolEnd (pool : List PoolEntry) : Nat :=
  match pool.getLast? with
  | none => 0
  | some e => e.va + e.size

@[simp] theorem poolEnd_append (l : List PoolEntry) (n : PoolEntry) :
    poolEnd (l ++ [n]) = n.va + n.size := by
  simp [poolEnd]

/-- An allocation that fits behind the last range stays below 2^64, wherever
it is put. -/
theorem place_below {bo : BufPtr} {b : GpuBuffer} {sizes : List Nat} {pool : List PoolEntry}
    (ordered : PoolOrdered pool) (below : Below pool)
    (room : poolEnd pool + sizes.sum < 2 ^ 64) : Below (place bo b sizes pool) := by
  by_cases empty : pool = []
  · subst empty; intro e member; simp [place] at member
  rcases place_cases bo b sizes empty with
    ⟨l₁, n, m, l₂, split, -, fits, -, result⟩ | ⟨l, n, split, -, result⟩
  · intro e member
    rw [split] at ordered
    have nBelow := below n (by simp [split])
    have mBelow := below m (by simp [split])
    have gap := gapFits_spec fits ordered.neighbours (by omega)
    simp only [result, List.mem_append, List.mem_cons] at member
    rcases member with h | rfl | rfl | rfl | h
    · exact below e (by simp [split, h])
    · exact nBelow
    · show add64 n.va n.size + b.vaSize < 2 ^ 64
      rw [add64_of_lt nBelow]
      omega
    · exact mBelow
    · exact below e (by simp [split, h])
  · intro e member
    rw [split, poolEnd_append] at room
    simp only [result, List.mem_append, List.mem_cons] at member
    rcases member with h | rfl | h
    · exact below e (by simp [split, h])
    · exact below e (by simp [split])
    · have bound := appendEntries_le room h
      omega

/-- The ranges of one allocation form one stretch, in a gap or at the end:
fragment `j` starts at the sum of the sizes before it. -/
theorem place_flat {bo : BufPtr} {b : GpuBuffer} {sizes : List Nat} {pool : List PoolEntry}
    (nonempty : pool ≠ []) (foreign : ∀ e ∈ pool, e.parentBo ≠ bo)
    (single : b.fragmentNumber = 1 → sizes = [b.vaSize])
    (room : poolEnd pool + sizes.sum < 2 ^ 64) :
    ∃ base, ∀ e ∈ place bo b sizes pool, e.parentBo = bo →
      ∃ j < sizes.length, e.bo = bo.add j ∧ e.va = base + (sizes.take j).sum := by
  rcases place_cases bo b sizes nonempty with
    ⟨l₁, n, m, l₂, split, one, -, -, result⟩ | ⟨l, n, split, -, result⟩
  · refine ⟨add64 n.va n.size, fun e member mine => ?_⟩
    simp only [result, List.mem_append, List.mem_cons] at member
    rcases member with h | rfl | rfl | rfl | h
    · exact absurd mine (foreign e (by simp [split, h]))
    · exact absurd mine (foreign e (by simp [split]))
    · exact ⟨0, by simp [single one], rfl, by simp⟩
    · exact absurd mine (foreign e (by simp [split]))
    · exact absurd mine (foreign e (by simp [split, h]))
  · rw [split, poolEnd_append] at room
    refine ⟨n.va + n.size, fun e member mine => ?_⟩
    simp only [result, List.mem_append, List.mem_cons] at member
    rcases member with h | rfl | h
    · exact absurd mine (foreign e (by simp [split, h]))
    · exact absurd mine (foreign e (by simp [split]))
    · obtain ⟨j, inRange, rfl⟩ := List.mem_iff_getElem.mp h
      have hj : j < sizes.length := by simpa using inRange
      have entry := @appendEntries_getElem bo sizes n 0 room j hj
      rw [List.getElem?_eq_getElem inRange, Option.some.injEq] at entry
      exact ⟨j, hj, by rw [entry, Nat.zero_add], by rw [entry]⟩

/-- Page-multiple ranges lead to page-multiple ranges, even across a wrap. -/
theorem place_pages {bo : BufPtr} {b : GpuBuffer} {sizes : List Nat} {pool : List PoolEntry}
    (pages : ∀ e ∈ pool, 4096 ∣ e.va ∧ 4096 ∣ e.size) (page : 4096 ∣ b.vaSize)
    (sizePages : ∀ size ∈ sizes, 4096 ∣ size) :
    ∀ e ∈ place bo b sizes pool, 4096 ∣ e.va ∧ 4096 ∣ e.size := by
  refine place_forall pages ?_
  rintro n ⟨va, size⟩ new (rfl | member) p
  · refine ⟨?_, page⟩
    show 4096 ∣ add64 n.va n.size
    unfold add64
    omega
  · refine ⟨?_, sizePages new member⟩
    show 4096 ∣ add64 n.va n.size
    unfold add64
    omega

/-- If every range ends at the same offset in a page, the new ones start and
end there too, even across a wrap. -/
theorem place_residue {bo : BufPtr} {b : GpuBuffer} {sizes : List Nat} {sentinel : PoolEntry}
    {pool : List PoolEntry} {r : Nat} (first : (sentinel.va + sentinel.size) % 4096 = r)
    (residue : ∀ e ∈ pool, e.va % 4096 = r ∧ 4096 ∣ e.size) (page : 4096 ∣ b.vaSize)
    (sizePages : ∀ size ∈ sizes, 4096 ∣ size) :
    ∀ e ∈ place bo b sizes (sentinel :: pool), e = sentinel ∨ e.va % 4096 = r ∧ 4096 ∣ e.size := by
  refine place_forall ?_ ?_
  · intro e member
    rcases List.mem_cons.mp member with rfl | inPool
    · exact .inl rfl
    · exact .inr (residue e inPool)
  · intro n old new allowed p
    have end_ : (n.va + n.size) % 4096 = r := by
      rcases old with rfl | ⟨va, size⟩
      · exact first
      · omega
    refine .inr ⟨?_, ?_⟩
    · show add64 n.va n.size % 4096 = r
      unfold add64
      omega
    · rcases allowed with rfl | member
      · exact page
      · exact sizePages new member

/-- A range put into a gap is one more range. -/
theorem perm_between {α : Type} (l₁ l₂ : List α) (n e m : α) :
    (l₁ ++ n :: e :: m :: l₂).Perm (l₁ ++ n :: m :: l₂ ++ [e]) := by
  have middle := @List.perm_middle _ e (l₁ ++ [n]) (m :: l₂)
  refine List.Perm.trans (by simpa using middle) ?_
  exact (List.perm_append_singleton _ _).symm

/-- Besides the old ranges, the pool has one for each fragment of the buffer. -/
theorem place_perm {bo : BufPtr} {b : GpuBuffer} {sizes : List Nat} {pool : List PoolEntry}
    (nonempty : pool ≠ []) (single : b.fragmentNumber = 1 → sizes = [b.vaSize]) :
    ∃ news, (place bo b sizes pool).Perm (pool ++ news) ∧
      news.map PoolEntry.bo = (List.range' 0 sizes.length).map bo.add ∧
      news.map PoolEntry.size = sizes ∧ ∀ e ∈ news, e.parentBo = bo := by
  rcases place_cases bo b sizes nonempty with
    ⟨l₁, n, m, l₂, split, one, -, -, result⟩ | ⟨l, n, split, -, result⟩
  · refine ⟨[{ va := add64 n.va n.size, size := b.vaSize, parentBo := bo, bo }], ?_, ?_, ?_, ?_⟩
    · rw [result, split]
      exact perm_between _ _ _ _ _
    · rw [single one]
      rfl
    · rw [single one]
      rfl
    · intro e member
      rw [List.mem_singleton.mp member]
  · refine ⟨appendEntries bo 0 sizes n, ?_, appendEntries_bos 0 sizes n,
      appendEntries_sizes 0 sizes n, fun e member => appendEntries_parent member⟩
    rw [result, split]
    simp

/-- Releasing a buffer right after placing it restores the pool. -/
theorem release_place {bo : BufPtr} {b : GpuBuffer} {sizes : List Nat} {pool : List PoolEntry}
    (foreign : ∀ e ∈ pool, e.parentBo ≠ bo) : release bo (place bo b sizes pool) = pool := by
  by_cases empty : pool = []
  · subst empty; rfl
  have keep : release bo pool = pool := by
    refine List.filter_eq_self.mpr fun e member => ?_
    simpa using foreign e member
  rcases place_cases bo b sizes empty with
    ⟨l₁, n, m, l₂, split, -, -, -, result⟩ | ⟨l, n, split, -, result⟩
  · rw [split] at keep
    rw [result, split]
    calc release bo (l₁ ++ n :: { va := add64 n.va n.size, size := b.vaSize, parentBo := bo, bo }
            :: m :: l₂)
        = release bo (l₁ ++ n :: m :: l₂) := by simp [release, List.filter_cons]
      _ = l₁ ++ n :: m :: l₂ := keep
  · have gone : release bo (appendEntries bo 0 sizes n) = [] := by
      refine List.filter_eq_nil_iff.mpr fun e member => ?_
      simpa using appendEntries_parent member
    rw [split] at keep
    rw [result, split]
    calc release bo (l ++ n :: appendEntries bo 0 sizes n)
        = release bo ((l ++ [n]) ++ appendEntries bo 0 sizes n) := by simp
      _ = release bo (l ++ [n]) ++ release bo (appendEntries bo 0 sizes n) :=
          List.filter_append _ _
      _ = l ++ [n] := by rw [keep, gone, List.append_nil]

end RadeonsiCompute
