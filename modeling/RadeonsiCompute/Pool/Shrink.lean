import RadeonsiCompute.Pool.Abstract
import RadeonsiCompute.Pool.Links

/-!
# Freeing on the heap refines `release`

`compute_pool_free` walks the list once and unlinks every node of the buffer,
however many there are and wherever they stand. `computePoolFree_spec` says
that it returns as soon as one node matches and the first node does not, that
the nodes left are exactly the others in the same order, and that no range and
no buffer has changed (`Shrank`).
-/

namespace RadeonsiCompute

open Lib

/-- Heap `h'` is `h` with the nodes `gone` of the pool `as` unlinked and freed. -/
structure Shrank (h h' : Heap) (as gone : List Addr) : Prop where
  live : ∀ a, a ∈ h'.nodes.live ↔ a ∈ h.nodes.live ∧ a ∉ gone
  entry : ∀ a, (h'.nodes.cell a).toPoolEntry = (h.nodes.cell a).toPoolEntry
  otherNode : ∀ a, a ∉ as → h'.nodes.cell a = h.nodes.cell a
  contexts : h'.contexts = h.contexts
  buffers : h'.buffers = h.buffers

namespace Shrank

variable {h h' h'' : Heap} {as as' gone gone' : List Addr}

theorem refl (h : Heap) (as : List Addr) : Shrank h h as [] := by
  constructor <;> simp

theorem trans (first : Shrank h h' as gone) (second : Shrank h' h'' as' gone')
    (members : ∀ a ∈ as', a ∈ as) : Shrank h h'' as (gone ++ gone') := by
  constructor
  · intro a
    rw [second.live, first.live, List.mem_append]
    tauto
  · intro a
    rw [second.entry, first.entry]
  · intro a outside
    rw [second.otherNode a fun member => outside (members a member), first.otherNode a outside]
  · rw [second.contexts, first.contexts]
  · rw [second.buffers, first.buffers]

theorem buffer (shrank : Shrank h h' as gone) (p : BufPtr) : h'.buffer p = h.buffer p := by
  simp only [Heap.buffer, shrank.buffers]

theorem unlink {p n : Addr} (hp : p ∈ as)
    (succ : ∀ x, (h.nodes.cell n).next = some x → x ∈ as) :
    Shrank h (h.unlink p n) as [n] := by
  constructor
  · intro a
    simp [and_comm]
  · exact Heap.unlink_entry
  · intro a outside
    have notPrev : a ≠ p := by rintro rfl; exact outside hp
    have notNext : (h.nodes.cell n).next ≠ some a := fun isNext => outside (succ a isNext)
    simp [Heap.unlink, notPrev, notNext]
  · rfl
  · rfl

end Shrank

/-- The statement sequence that unlinks a node is `unlink`. -/
theorem unlinkNode_eq {h : Heap} {head p n : Addr} {l₁ l₂ : List Addr}
    (pool : IsPool h head (l₁ ++ p :: n :: l₂)) :
    unlinkNode h n (h.nodes.cell n) = .ok (h.unlink p n) := by
  have pLive := pool.live p (by simp)
  have nLive := pool.live n (by simp)
  have prev : (h.nodes.cell n).prev = some p := pool.linked.prev_eq
  have split : IsPool h head ((l₁ ++ [p]) ++ n :: l₂) := by simpa using pool
  have next := split.linked.next_eq
  simp only [unlinkNode, prev, Store.modify_eq pLive, ok_bind]
  cases l₂ with
  | nil =>
      simp only [List.head?_nil] at next
      simp only [next, Heap.unlink]
      rw [Store.free_eq (by exact nLive), ok_bind]
      congr 3
      funext x
      by_cases isPrev : x = p
      · subst isPrev; simp
      · simp [isPrev]
  | cons q l₂ =>
      simp only [List.head?_cons] at next
      have qLive := pool.live q (by simp)
      have apart : q ≠ p := by
        have nodup := (List.nodup_append.mp pool.nodup).2.1
        rintro rfl
        exact (List.nodup_cons.mp nodup).1 (by simp)
      simp only [next, Heap.unlink]
      rw [Store.modify_eq (by exact qLive), ok_bind, Store.free_eq (by exact nLive), ok_bind]
      congr 3
      funext x
      by_cases isPrev : x = p
      · subst isPrev; simp [Ne.symm apart]
      by_cases isNext : x = q
      · subst isNext; simp [isPrev]
      · simp [isPrev, isNext, Ne.symm isNext]

/-- The listed nodes that belong to a buffer. -/
def Heap.nodesOf (h : Heap) (bo : BufPtr) (as : List Addr) : List Addr :=
  as.filter fun a => (h.nodes.cell a).parentBo = bo

/-- The listed nodes that do not. -/
def Heap.nodesNotOf (h : Heap) (bo : BufPtr) (as : List Addr) : List Addr :=
  as.filter fun a => (h.nodes.cell a).parentBo ≠ bo

theorem Heap.entries_nodesNotOf (h : Heap) (bo : BufPtr) (as : List Addr) :
    h.entries (h.nodesNotOf bo as) = release bo (h.entries as) := by
  simp only [Heap.entries, Heap.nodesNotOf, release, List.filter_map]
  rfl

/-- From a node that stays, the walk of `compute_pool_free` removes the nodes
of the buffer among the rest of the list. -/
theorem poolFreeLoop_spec (bo : BufPtr) {head : Addr} (rest : List Addr) :
    ∀ {h : Heap} {pre : List Addr} {p : Addr} {fuel : Nat} (found : Nat),
      IsPool h head (pre ++ p :: rest) → rest.length ≤ fuel →
      ∃ h', poolFreeLoop bo fuel h rest.head? found =
          .ok (found + (h.nodesOf bo rest).length, h') ∧
        IsPool h' head (pre ++ p :: h.nodesNotOf bo rest) ∧
        Shrank h h' (pre ++ p :: rest) (h.nodesOf bo rest) := by
  induction rest with
  | nil =>
      intro h pre p fuel found pool _
      refine ⟨h, ?_, pool, Shrank.refl h _⟩
      cases fuel <;> rfl
  | cons n rest ih =>
      intro h pre p fuel found pool enough
      simp only [List.length_cons] at enough
      obtain ⟨fuel, rfl⟩ : ∃ f, fuel = f + 1 := ⟨fuel - 1, by omega⟩
      have split : IsPool h head ((pre ++ [p]) ++ n :: rest) := by simpa using pool
      have next : (h.nodes.cell n).next = rest.head? := split.linked.next_eq
      have nLive := pool.live n (by simp)
      by_cases mine : (h.nodes.cell n).parentBo = bo
      · -- `n` goes, and `p` stays the node before the rest
        have pool₁ : IsPool (h.unlink p n) head (pre ++ p :: rest) := pool.unlink
        have shrank₁ : Shrank h (h.unlink p n) (pre ++ p :: n :: rest) [n] := by
          refine Shrank.unlink (by simp) fun x isNext => ?_
          rw [next] at isNext
          have inRest : x ∈ rest := List.mem_of_head? isNext
          simp [inRest]
        obtain ⟨h', run, pool', shrank⟩ := ih (found + 1) pool₁ (by omega : rest.length ≤ fuel)
        have same : (h.unlink p n).nodesOf bo rest = h.nodesOf bo rest :=
          List.filter_congr fun x _ => by rw [Heap.unlink_entry]
        have sameNot : (h.unlink p n).nodesNotOf bo rest = h.nodesNotOf bo rest :=
          List.filter_congr fun x _ => by rw [Heap.unlink_entry]
        rw [same] at run shrank
        rw [sameNot] at pool'
        have consOf : h.nodesOf bo (n :: rest) = n :: h.nodesOf bo rest := by
          simp [Heap.nodesOf, mine]
        have consNotOf : h.nodesNotOf bo (n :: rest) = h.nodesNotOf bo rest := by
          simp [Heap.nodesNotOf, mine]
        refine ⟨h', ?_, by rwa [consNotOf], ?_⟩
        · simp only [List.head?_cons, poolFreeLoop, Store.load_eq nLive, ok_bind, if_pos mine,
            unlinkNode_eq pool, next, run, consOf, List.length_cons]
          congr 2
          omega
        · rw [consOf]
          refine shrank₁.trans shrank fun x member => ?_
          simp at member ⊢
          tauto
      · -- `n` stays, and is the node before the rest
        obtain ⟨h', run, pool', shrank⟩ := ih found split (by omega : rest.length ≤ fuel)
        have consOf : h.nodesOf bo (n :: rest) = h.nodesOf bo rest := by
          simp [Heap.nodesOf, mine]
        have consNotOf : h.nodesNotOf bo (n :: rest) = n :: h.nodesNotOf bo rest := by
          simp [Heap.nodesNotOf, mine]
        refine ⟨h', ?_, by simpa [consNotOf] using pool', by simpa [consOf] using shrank⟩
        simp only [List.head?_cons, poolFreeLoop, Store.load_eq nLive, ok_bind, if_neg mine,
          next, run, consOf]

/-- **Refinement of `release`.** When the first node belongs to someone else,
`compute_pool_free` removes exactly the nodes of the buffer, and returns if
there is one. -/
theorem computePoolFree_spec {h : Heap} {ctx : Addr} {bo : BufPtr} {rest : List Addr}
    (ctxLive : ctx ∈ h.contexts.live)
    (pool : IsPool h (h.contexts.cell ctx).vmPool ((h.contexts.cell ctx).vmPool :: rest))
    (foreign : (h.nodes.cell (h.contexts.cell ctx).vmPool).parentBo ≠ bo)
    (owned : h.nodesOf bo rest ≠ []) :
    ∃ h', computePoolFree h ctx bo = .ok h' ∧
      IsPool h' (h.contexts.cell ctx).vmPool
        ((h.contexts.cell ctx).vmPool :: h.nodesNotOf bo rest) ∧
      Shrank h h' ((h.contexts.cell ctx).vmPool :: rest) (h.nodesOf bo rest) := by
  have enough : rest.length + 1 ≤ h.nodes.live.card := by
    have bound := Store.length_le_card pool.nodup pool.live
    simpa using bound
  obtain ⟨fuel, cardEq⟩ : ∃ f, h.nodes.live.card = f + 1 := ⟨h.nodes.live.card - 1, by omega⟩
  have headLive := pool.live _ List.mem_cons_self
  have next : (h.nodes.cell (h.contexts.cell ctx).vmPool).next = rest.head? := by
    have split : IsPool h (h.contexts.cell ctx).vmPool
        ([] ++ (h.contexts.cell ctx).vmPool :: rest) := pool
    exact split.linked.next_eq
  obtain ⟨h', run, pool', shrank⟩ :=
    poolFreeLoop_spec bo rest 0 (by exact pool : IsPool h _ ([] ++ _ :: rest))
      (by omega : rest.length ≤ fuel)
  refine ⟨h', ?_, pool', shrank⟩
  have some : 0 + (h.nodesOf bo rest).length ≠ 0 := by
    simpa using owned
  simp only [computePoolFree, Store.load_eq ctxLive, ok_bind, cardEq, poolFreeLoop,
    Store.load_eq headLive, if_neg foreign, next, run, if_neg some]

/-- When the first node matches, the walk follows its missing `prev`. -/
theorem computePoolFree_stale {h : Heap} {ctx : Addr} {bo : BufPtr} {as : List Addr}
    (ctxLive : ctx ∈ h.contexts.live) (pool : IsPool h (h.contexts.cell ctx).vmPool as)
    (stale : (h.nodes.cell (h.contexts.cell ctx).vmPool).parentBo = bo) :
    computePoolFree h ctx bo = .error .nullDeref := by
  cases as with
  | nil => exact absurd pool.head_eq (by simp)
  | cons n rest =>
      obtain rfl : n = (h.contexts.cell ctx).vmPool := by simpa using pool.head_eq
      have headLive := pool.live _ List.mem_cons_self
      obtain ⟨prev, -, -⟩ := pool.linked
      obtain ⟨fuel, cardEq⟩ : ∃ f, h.nodes.live.card = f + 1 :=
        ⟨h.nodes.live.card - 1, by have := Finset.card_pos.mpr ⟨_, headLive⟩; omega⟩
      simp only [computePoolFree, Store.load_eq ctxLive, ok_bind, cardEq, poolFreeLoop,
        Store.load_eq headLive, if_pos stale, unlinkNode, prev, error_bind]

end RadeonsiCompute
