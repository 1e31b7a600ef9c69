import RadeonsiCompute.Lib.LinkedList
import RadeonsiCompute.Pool.Code

/-!
# The pool list and its two surgeries

`IsPool h head as` reads the heap as a list: the nodes `as`, in order, form a
doubly linked list that starts at `head`. Every change the code makes to a pool
is one of two heap surgeries, `linkAfter` and `unlink`; here the code's own
statement sequences are shown to be these surgeries, and the surgeries to keep
the list well linked.
-/

namespace RadeonsiCompute

open Lib

/-- The allocated nodes `as` are the doubly linked list that starts at `head`. -/
structure IsPool (h : Heap) (head : Addr) (as : List Addr) : Prop where
  head_eq : as.head? = some head
  linked : Linked (fun a => (h.nodes.cell a).next) (fun a => (h.nodes.cell a).prev) none as none
  live : ∀ a ∈ as, a ∈ h.nodes.live
  nodup : as.Nodup

/-- The nodes met by following `next` from a node. -/
def Heap.nodesFrom (h : Heap) : Nat → Option Addr → List Addr
  | 0, _ => []
  | _, none => []
  | fuel + 1, some a => a :: h.nodesFrom fuel (h.nodes.cell a).next

/-- The nodes of `ctx->vm_pool`. -/
def Heap.poolNodes (h : Heap) (ctx : Addr) : List Addr :=
  h.nodesFrom h.nodes.live.card (some (h.contexts.cell ctx).vmPool)

theorem Heap.nodesFrom_eq {h : Heap} {as : List Addr} {p : Option Addr}
    (linked : Linked (fun a => (h.nodes.cell a).next) (fun a => (h.nodes.cell a).prev) p as none)
    {fuel : Nat} (enough : as.length ≤ fuel) : h.nodesFrom fuel as.head? = as := by
  induction as generalizing p fuel with
  | nil => cases fuel <;> rfl
  | cons a as ih =>
      obtain ⟨-, next, rest⟩ := linked
      obtain ⟨fuel, rfl⟩ : ∃ f, fuel = f + 1 := ⟨fuel - 1, by simp at enough; omega⟩
      have next' : (h.nodes.cell a).next = as.head? := by simpa using next
      show a :: h.nodesFrom fuel (h.nodes.cell a).next = a :: as
      rw [next', ih rest (by simpa using enough)]

/-- The list of a pool is what a walk over it meets. -/
theorem IsPool.poolNodes_eq {h : Heap} {ctx : Addr} {as : List Addr}
    (pool : IsPool h (h.contexts.cell ctx).vmPool as) : h.poolNodes ctx = as := by
  have enough := Store.length_le_card pool.nodup pool.live
  have walk := Heap.nodesFrom_eq pool.linked enough
  rw [pool.head_eq] at walk
  exact walk

/-- The VA ranges of the listed nodes. -/
def Heap.entries (h : Heap) (as : List Addr) : List PoolEntry :=
  as.map fun a => (h.nodes.cell a).toPoolEntry

@[simp] theorem Heap.entries_nil (h : Heap) : h.entries [] = [] := rfl

@[simp] theorem Heap.entries_cons (h : Heap) (a : Addr) (as : List Addr) :
    h.entries (a :: as) = (h.nodes.cell a).toPoolEntry :: h.entries as := rfl

@[simp] theorem Heap.entries_append (h : Heap) (as bs : List Addr) :
    h.entries (as ++ bs) = h.entries as ++ h.entries bs := List.map_append

theorem Heap.mem_entries {h : Heap} {as : List Addr} {e : PoolEntry} :
    e ∈ h.entries as ↔ ∃ a ∈ as, (h.nodes.cell a).toPoolEntry = e := List.mem_map

theorem Heap.entry_mem (h : Heap) {as : List Addr} {a : Addr} (member : a ∈ as) :
    (h.nodes.cell a).toPoolEntry ∈ h.entries as := List.mem_map_of_mem member

/-- Entries depend only on the ranges of the listed nodes. -/
theorem Heap.entries_congr {h h' : Heap} {as : List Addr}
    (same : ∀ a ∈ as, (h'.nodes.cell a).toPoolEntry = (h.nodes.cell a).toPoolEntry) :
    h'.entries as = h.entries as := List.map_congr_left same

namespace Heap

/-- Put a new node `a` with range `e` after node `n`. -/
def linkAfter (h : Heap) (n a : Addr) (e : PoolEntry) : Heap :=
  { h with nodes := {
      cell := fun x =>
        if x = a then { toPoolEntry := e, prev := some n, next := (h.nodes.cell n).next }
        else if x = n then { h.nodes.cell n with next := some a }
        else if (h.nodes.cell n).next = some x then { h.nodes.cell x with prev := some a }
        else h.nodes.cell x
      live := insert a h.nodes.live } }

/-- Take node `n`, which follows `p`, out of the list and free it. -/
def unlink (h : Heap) (p n : Addr) : Heap :=
  { h with nodes := {
      cell := fun x =>
        if x = p then { h.nodes.cell p with next := (h.nodes.cell n).next }
        else if (h.nodes.cell n).next = some x then { h.nodes.cell x with prev := some p }
        else h.nodes.cell x
      live := h.nodes.live.erase n } }

variable {h : Heap} {n a p : Addr} {e : PoolEntry}

@[simp] theorem linkAfter_buffers : (h.linkAfter n a e).buffers = h.buffers := rfl

@[simp] theorem linkAfter_contexts : (h.linkAfter n a e).contexts = h.contexts := rfl

@[simp] theorem linkAfter_live : (h.linkAfter n a e).nodes.live = insert a h.nodes.live := rfl

@[simp] theorem linkAfter_buffer (q : BufPtr) : (h.linkAfter n a e).buffer q = h.buffer q := rfl

@[simp] theorem linkAfter_entry_new :
    ((h.linkAfter n a e).nodes.cell a).toPoolEntry = e := by
  simp [linkAfter]

/-- Linking changes the links of other nodes, never their ranges. -/
theorem linkAfter_entry_old {x : Addr} (other : x ≠ a) :
    ((h.linkAfter n a e).nodes.cell x).toPoolEntry = (h.nodes.cell x).toPoolEntry := by
  unfold linkAfter
  by_cases isPrev : x = n
  · subst isPrev; simp [other]
  · by_cases isNext : (h.nodes.cell n).next = some x <;> simp [other, isPrev, isNext]

@[simp] theorem unlink_buffers : (h.unlink p n).buffers = h.buffers := rfl

@[simp] theorem unlink_contexts : (h.unlink p n).contexts = h.contexts := rfl

@[simp] theorem unlink_live : (h.unlink p n).nodes.live = h.nodes.live.erase n := rfl

@[simp] theorem unlink_buffer (q : BufPtr) : (h.unlink p n).buffer q = h.buffer q := rfl

/-- Unlinking changes no range at all. -/
theorem unlink_entry (x : Addr) :
    ((h.unlink p n).nodes.cell x).toPoolEntry = (h.nodes.cell x).toPoolEntry := by
  unfold unlink
  by_cases isPrev : x = p
  · subst isPrev; simp
  · by_cases isNext : (h.nodes.cell n).next = some x <;> simp [isPrev, isNext]

end Heap

/-! ## The list after a surgery -/

private theorem perm_after (l₁ : List Addr) (n a : Addr) (l₂ : List Addr) :
    (l₁ ++ n :: a :: l₂).Perm (a :: (l₁ ++ n :: l₂)) := by
  have middle : (l₁ ++ [n] ++ a :: l₂).Perm (a :: (l₁ ++ [n] ++ l₂)) := List.perm_middle
  simpa using middle

theorem IsPool.linkAfter {h : Heap} {head n a : Addr} {l₁ l₂ : List Addr}
    (pool : IsPool h head (l₁ ++ n :: l₂)) (fresh : a ∉ h.nodes.live) (e : PoolEntry) :
    IsPool (h.linkAfter n a e) head (l₁ ++ n :: a :: l₂) := by
  have outside : ∀ b ∈ l₁ ++ n :: l₂, b ≠ a := by
    rintro b member rfl
    exact fresh (pool.live b member)
  have apart : ∀ b ∈ l₁ ++ l₂, b ≠ n := by
    rintro b member rfl
    have nodup := pool.nodup
    rw [List.nodup_middle] at nodup
    exact (List.nodup_cons.mp nodup).1 member
  have member : n ∈ l₁ ++ n :: l₂ := by simp
  refine ⟨?_, ?_, ?_, ?_⟩
  · have := pool.head_eq
    cases l₁ <;> simpa using this
  · refine pool.linked.insertAfter pool.nodup ?_ ?_ ?_ ?_ ?_ ?_
    · simp [Heap.linkAfter]
    · simp [Heap.linkAfter, outside n member]
    · intro b inRest
      have notNew := outside b (by simp at inRest ⊢; tauto)
      by_cases isNext : (h.nodes.cell n).next = some b <;>
        simp [Heap.linkAfter, notNew, apart b inRest, isNext]
    · simp [Heap.linkAfter]
    · intro y isNext
      have next := pool.linked.next_eq
      rw [isNext] at next
      have inRight : y ∈ l₂ := List.mem_of_head? next.symm
      simp [Heap.linkAfter, outside y (by simp [inRight]), apart y (by simp [inRight]), isNext]
    · intro b inList notNext
      by_cases isPrev : b = n
      · subst isPrev; simp [Heap.linkAfter, outside b inList]
      · simp [Heap.linkAfter, outside b inList, isPrev, notNext]
  · intro b inList
    simp only [Heap.linkAfter_live, Finset.mem_insert]
    by_cases isNew : b = a
    · exact .inl isNew
    · refine .inr (pool.live b ?_)
      simp at inList ⊢
      tauto
  · have nodup := pool.nodup
    have notMember : a ∉ l₁ ++ n :: l₂ := fun inList => outside a inList rfl
    have perm := perm_after l₁ n a l₂
    exact perm.nodup_iff.mpr (List.nodup_cons.mpr ⟨notMember, nodup⟩)

theorem IsPool.unlink {h : Heap} {head p n : Addr} {l₁ l₂ : List Addr}
    (pool : IsPool h head (l₁ ++ p :: n :: l₂)) :
    IsPool (h.unlink p n) head (l₁ ++ p :: l₂) := by
  have perm := perm_after l₁ p n l₂
  have removed : n ∉ l₁ ++ p :: l₂ ∧ (l₁ ++ p :: l₂).Nodup :=
    List.nodup_cons.mp (perm.nodup_iff.mp pool.nodup)
  have apart : ∀ b ∈ l₁ ++ l₂, b ≠ p := by
    rintro b member rfl
    have nodup := removed.2
    rw [List.nodup_middle] at nodup
    exact (List.nodup_cons.mp nodup).1 member
  have next : (h.nodes.cell n).next = l₂.head? := by
    have split : IsPool h head ((l₁ ++ [p]) ++ n :: l₂) := by simpa using pool
    exact split.linked.next_eq
  refine ⟨?_, ?_, ?_, removed.2⟩
  · have := pool.head_eq
    cases l₁ <;> simpa using this
  · refine pool.linked.removeAfter pool.nodup ?_ ?_ ?_ ?_
    · simp [Heap.unlink]
    · intro b inRest
      by_cases isNext : (h.nodes.cell n).next = some b <;>
        simp [Heap.unlink, apart b inRest, isNext]
    · intro y isNext
      rw [next] at isNext
      have inRight : y ∈ l₂ := List.mem_of_head? isNext
      simp [Heap.unlink, apart y (by simp [inRight]), next, isNext]
    · intro b inList notNext
      by_cases isPrev : b = p
      · subst isPrev; simp [Heap.unlink]
      · simp [Heap.unlink, isPrev, notNext]
  · intro b inList
    simp only [Heap.unlink_live, Finset.mem_erase]
    refine ⟨?_, pool.live b ?_⟩
    · rintro rfl; exact removed.1 inList
    · simp at inList ⊢
      tauto

end RadeonsiCompute
