import RadeonsiCompute.Dma.Async
import RadeonsiCompute.Ring.Wait

/-!
# When a copy has been made

A copy is submitted in pieces, and the hardware makes them while other rings and
other processes go on. Both kinds of copy are waited for: a synchronous one by
its last piece, an asynchronous one by a fence. When the wait returns the whole
copy has been made, from what the source held when the ring came to it, in
whatever order the rings were worked off.
-/

namespace RadeonsiCompute

open Lib

variable {κ β : Type}

/-- What a submission moves, if it consists of copies. -/
def Job.moves (job : Job) : Option (List Move) :=
  if job.ring = some radeonCsRingCompute then
    (decodeSyncIb job.cs.ib).bind fun packets => packets.mapM CpDma.move
  else if job.ring = some radeonCsRingDma then (decodeAsyncIb job.cs.ib).map fun m => [m]
  else none

/-- Moves inside one memory, in order. -/
def execMoves (moves : List Move) (mem : Nat → β) : Nat → β :=
  moves.foldl (fun mem m => m.exec mem) mem

/-- In the memory of descriptor `fd`, a submission of its own that consists of
copies makes them. -/
def MakesCopies (effect : Job → (Nat → β) → (Nat → β) → Prop) (fd : Nat) : Prop :=
  ∀ job moves mem mem', job.fd = fd → job.moves = some moves → effect job mem mem' →
    mem' = execMoves moves mem

/-- Nothing but what descriptor `fd` has on `ring` changes the given cells: not
what other processes submit, and not what `fd` has pending on other rings. -/
structure Undisturbed (effect : Job → (Nat → β) → (Nat → β) → Prop) (pending : List Job)
    (fd : Nat) (ring : Dword) (cells : Set Nat) : Prop where
  foreign : ∀ job mem mem', job.fd ≠ fd → effect job mem mem' → ∀ a ∈ cells, mem' a = mem a
  others : ∀ job ∈ pending, job.ring ≠ some ring → ∀ mem mem', effect job mem mem' →
    ∀ a ∈ cells, mem' a = mem a

/-- The submissions of a descriptor on a ring. -/
def Job.Of (fd : Nat) (ring : Dword) (job : Job) : Prop := job.fd = fd ∧ job.ring = some ring

instance (fd : Nat) (ring : Dword) (job : Job) : Decidable (job.Of fd ring) :=
  inferInstanceAs (Decidable (_ ∧ _))

theorem Job.Of.same {fd : Nat} {ring : Dword} (job other : Job) (here : job.Of fd ring)
    (there : other.Of fd ring) : job.ring = other.ring := here.2.trans there.2.symm

/-- A descriptor that submits to one ring only has submitted it all there. -/
theorem accepted_of_own {es : List (RingEvent Job)} {fd : Nat} {ring : Dword} {js : List Job}
    (own : (Rings.accepted es).filter (fun job => job.fd = fd) = js)
    (onRing : ∀ job ∈ js, job.ring = some ring) :
    (Rings.accepted es).filter (Job.Of fd ring) = js := by
  have both : (Rings.accepted es).filter (Job.Of fd ring) =
      ((Rings.accepted es).filter fun job => job.fd = fd).filter fun job =>
        job.ring = some ring := by
    rw [List.filter_filter]
    refine List.filter_congr fun job _ => ?_
    rw [Bool.eq_iff_iff, Bool.and_eq_true, decide_eq_true_iff, decide_eq_true_iff,
      decide_eq_true_iff]
    exact and_comm
  rw [both, own]
  exact List.filter_eq_self.mpr fun job member => by simpa using onRing job member

/-- If what it submitted is gone, and it had nothing pending before, it has nothing pending. -/
theorem idle_of_own {σ : Type} {effect : Job → σ → σ → Prop} {rs rs' : Rings Job σ}
    {es : List (RingEvent Job)} {fd : Nat} {ring : Dword} {js : List Job}
    (run : Rings.Run Job.ring effect rs es rs')
    (own : (Rings.accepted es).filter (fun job => job.fd = fd) = js)
    (onRing : ∀ job ∈ js, job.ring = some ring) (left : ∀ job ∈ rs'.pending, ¬ job.Of fd ring)
    (idle : ∀ job ∈ rs.pending, job.fd ≠ fd) : ∀ job ∈ rs'.pending, job.fd ≠ fd := by
  intro job member mine
  cases run.pending_mem job member with
  | inl pending => exact idle job pending mine
  | inr accepted =>
      have inOwn : job ∈ (Rings.accepted es).filter (fun job => job.fd = fd) :=
        List.mem_filter.mpr ⟨accepted, by simpa using mine⟩
      rw [own] at inOwn
      exact left job member ⟨mine, onRing job inOwn⟩

section Moves

variable {dst src len : Nat} {ms : List Move}

end Moves

/-! ## The rule for a copy -/

section Rule

variable {effect : Job → (Nat → β) → (Nat → β) → Prop} {rs rs' : Rings Job (Nat → β)}
  {es : List (RingEvent Job)} {fd : Nat} {ring : Dword} {js : List Job} {dst src len : Nat}

/-- What descriptor `fd` submitted in a history was the copy, on one ring, and
its last submission is gone. -/
structure CopyGone (fd : Nat) (ring : Dword) (dst src len : Nat) (es : List (RingEvent Job))
    (rs' : Rings Job (Nat → β)) (js : List Job) (moves : Job → List Move) : Prop where
  own : (Rings.accepted es).filter (fun job => job.fd = fd) = js
  onRing : ∀ job ∈ js, job.ring = some ring
  decoded : ∀ job ∈ js, job.moves = some (moves job)
  tiles : Tiles (js.flatMap moves) dst src len
  clear : src + len ≤ dst ∨ dst + len ≤ src
  last : ∃ init last, js = init ++ [last] ∧ last ∉ rs'.pending

namespace CopyGone

variable {moves : Job → List Move}

/-- The ring came to the end of the copy, and finished what it had before first. -/
theorem finished (gone : CopyGone fd ring dst src len es rs' js moves)
    (run : Rings.Run Job.ring effect rs es rs') :
    rs'.pending.filter (Job.Of fd ring) = [] ∧
      (Rings.finished es).filter (Job.Of fd ring) = rs.pending.filter (Job.Of fd ring) ++ js := by
  obtain ⟨init, last, split, left⟩ := gone.last
  have ours := accepted_of_own gone.own gone.onRing
  rw [split] at ours ⊢
  exact run.emptied Job.Of.same ours left

/-- Its pieces, one after the other, are one move. -/
theorem exec (gone : CopyGone fd ring dst src len es rs' js moves) (mem : Nat → β) :
    js.foldl (fun t job => execMoves (moves job) t) mem = (Move.mk dst src len).exec mem := by
  rw [← gone.tiles.foldl_exec gone.clear, List.foldl_flatMap]
  rfl

end CopyGone

/-- What finishes during the copy and is not part of it leaves its cells alone. -/
theorem Undisturbed.finished {cells : Set Nat} (run : Rings.Run Job.ring effect rs es rs')
    (quiet : Undisturbed effect rs.pending fd ring cells)
    (own : (Rings.accepted es).filter (fun job => job.fd = fd) = js)
    (onRing : ∀ job ∈ js, job.ring = some ring) :
    ∀ job ∈ Rings.finished es, ¬ job.Of fd ring → ∀ mem mem', effect job mem mem' →
      ∀ a ∈ cells, mem' a = mem a := by
  intro job member other mem mem' does
  by_cases mine : job.fd = fd
  · have otherRing : job.ring ≠ some ring := fun here => other ⟨mine, here⟩
    cases run.finished_mem job member with
    | inl pending => exact quiet.others job pending otherRing mem mem' does
    | inr accepted =>
        -- all this descriptor submitted went to this ring
        have inOwn : job ∈ (Rings.accepted es).filter (fun job => job.fd = fd) :=
          List.mem_filter.mpr ⟨accepted, by simpa using mine⟩
        rw [own] at inOwn
        exact absurd (onRing job inOwn) otherRing
  · exact quiet.foreign job mem mem' mine does

/-- Nothing another descriptor submits shows in the memory of this one. -/
def Isolated (effect : Job → (Nat → β) → (Nat → β) → Prop) (fd : Nat) : Prop :=
  ∀ job mem mem', job.fd ≠ fd → effect job mem mem' → mem' = mem

/-- In a memory of its own, a descriptor with nothing pending gets the copy and
nothing else, and has nothing pending afterwards. -/
theorem copied_of_run {moves : Job → List Move} (run : Rings.Run Job.ring effect rs es rs')
    (gone : CopyGone fd ring dst src len es rs' js moves) (makes : MakesCopies effect fd)
    (isolated : Isolated effect fd) (idle : ∀ job ∈ rs.pending, job.fd ≠ fd) :
    rs'.state = (Move.mk dst src len).exec rs.state ∧ ∀ job ∈ rs'.pending, job.fd ≠ fd := by
  obtain ⟨left, finished⟩ := gone.finished run
  have nothing : rs.pending.filter (Job.Of fd ring) = [] :=
    List.filter_eq_nil_iff.mpr fun job member mine =>
      idle job member (of_decide_eq_true mine).1
  rw [nothing, List.nil_append] at finished
  have onRing : ∀ job ∈ Rings.accepted es, job.fd = fd → job ∈ js := by
    intro job member mine
    rw [← gone.own]
    exact List.mem_filter.mpr ⟨member, by simpa using mine⟩
  constructor
  · have seen := run.simulates (Job.Of fd ring) (fun (t : Nat → β) s => s = t)
      (fun t job => execMoves (moves job) t) (t := rs.state)
      (fun job member mine t s s' does same => by
        have inJs : job ∈ js := by
          rw [← finished]
          exact List.mem_filter.mpr ⟨member, by simpa using mine⟩
        rw [makes job _ s s' mine.1 (gone.decoded job inJs) does, same])
      (fun job member other t s s' does same => by
        rw [isolated job s s' ?_ does, same]
        intro mine
        cases run.finished_mem job member with
        | inl pending => exact idle job pending mine
        | inr accepted => exact other ⟨mine, gone.onRing job (onRing job accepted mine)⟩)
      rfl
    rw [finished, gone.exec] at seen
    exact seen
  · exact idle_of_own run gone.own gone.onRing
      (fun job member mine => List.filter_eq_nil_iff.mp left job member (by simpa using mine)) idle

end Rule

/-- In the memory of descriptor 3, its copies; nothing else writes there. -/
def copyExec {β : Type} (job : Job) (mem : Nat → β) : Nat → β :=
  if job.fd = 3 then execMoves (job.moves.getD []) mem else mem

theorem makesCopies_copyExec {β : Type} :
    MakesCopies (fun (job : Job) (mem mem' : Nat → β) => mem' = copyExec job mem) 3 := by
  intro job moves mem mem' own decoded does
  rw [does, copyExec, if_pos own, decoded]
  rfl

end RadeonsiCompute
