import Mathlib.Data.List.Basic
import Mathlib.Tactic.Common

/-!
# Queues that finish in order

Jobs are handed to several rings. A ring finishes its jobs in the order it
accepted them, and nothing is said about the order between rings. What a ring
has finished and what it has left are together what it was handed (`Run.fifo`),
so a job that is gone takes everything before it along. `Run.simulates` is the
rule for what the jobs do to the state: those of interest act one after the
other on what an observer sees, and the others do not show. `Run.serial` is the
same for others that change nothing at all.
-/

namespace RadeonsiCompute.Lib

/-- The jobs that were accepted and are not finished, oldest first, and the
state they work on. -/
structure Rings (α σ : Type) where
  pending : List α
  state : σ

inductive RingEvent (α : Type)
  | accept (job : α)
  | finish (job : α)

namespace RingEvent

variable {α : Type}

def accepted? : RingEvent α → Option α
  | .accept job => some job
  | .finish _ => none

def finished? : RingEvent α → Option α
  | .accept _ => none
  | .finish job => some job

end RingEvent

namespace Rings

variable {α σ ρ : Type}

/-- The jobs a history accepts. -/
def accepted (es : List (RingEvent α)) : List α := es.filterMap RingEvent.accepted?

/-- The jobs a history finishes. -/
def finished (es : List (RingEvent α)) : List α := es.filterMap RingEvent.finished?

section Histories

variable (job : α) (es es' : List (RingEvent α))

@[simp] theorem accepted_nil : accepted ([] : List (RingEvent α)) = [] := rfl

@[simp] theorem accepted_accept : accepted (.accept job :: es) = job :: accepted es := rfl

@[simp] theorem accepted_finish : accepted (.finish job :: es) = accepted es := rfl

@[simp] theorem accepted_append : accepted (es ++ es') = accepted es ++ accepted es' :=
  List.filterMap_append

@[simp] theorem finished_nil : finished ([] : List (RingEvent α)) = [] := rfl

@[simp] theorem finished_accept : finished (.accept job :: es) = finished es := rfl

@[simp] theorem finished_finish : finished (.finish job :: es) = job :: finished es := rfl

@[simp] theorem finished_append : finished (es ++ es') = finished es ++ finished es' :=
  List.filterMap_append

end Histories

variable (ring : α → ρ) (effect : α → σ → σ → Prop)

/-- A job joins its ring, or the first job of a ring finishes. What a job does
is placed where it finishes. -/
inductive Step : Rings α σ → RingEvent α → Rings α σ → Prop
  | accept {rs job} : Step rs (.accept job) { rs with pending := rs.pending ++ [job] }
  | finish {before job after s s'} : (∀ other ∈ before, ring other ≠ ring job) →
      effect job s s' → Step ⟨before ++ job :: after, s⟩ (.finish job) ⟨before ++ after, s'⟩

inductive Run : Rings α σ → List (RingEvent α) → Rings α σ → Prop
  | nil {rs} : Run rs [] rs
  | cons {rs e rs₁ es rs'} : Step ring effect rs e rs₁ → Run rs₁ es rs' → Run rs (e :: es) rs'

/-- The oldest job of all can always finish. -/
theorem Step.oldest {ring : α → ρ} {effect : α → σ → σ → Prop} {job : α} {rest : List α} {s s' : σ}
    (does : effect job s s') : Step ring effect ⟨job :: rest, s⟩ (.finish job) ⟨rest, s'⟩ :=
  @Step.finish α σ ρ ring effect [] job rest s s' (fun _ member => absurd member List.not_mem_nil)
    does

/-- The jobs act one after the other. -/
inductive Serial : List α → σ → σ → Prop
  | nil {s} : Serial [] s s
  | cons {job jobs s s₁ s'} : effect job s s₁ → Serial jobs s₁ s' → Serial (job :: jobs) s s'

namespace Run

variable {ring effect} {rs rs₁ rs' : Rings α σ} {es es' : List (RingEvent α)}

theorem append (first : Run ring effect rs es rs₁) (second : Run ring effect rs₁ es' rs') :
    Run ring effect rs (es ++ es') rs' := by
  induction first with
  | nil => exact second
  | cons step _ ih => exact .cons step (ih second)

/-- A run can be cut anywhere. -/
theorem split (run : Run ring effect rs (es ++ es') rs') :
    ∃ rs₁, Run ring effect rs es rs₁ ∧ Run ring effect rs₁ es' rs' := by
  induction es generalizing rs with
  | nil => exact ⟨rs, .nil, run⟩
  | cons e es ih =>
      cases run with
      | cons step rest =>
          obtain ⟨rs₁, first, second⟩ := ih rest
          exact ⟨rs₁, .cons step first, second⟩

/-- Only what was accepted is pending. -/
theorem pending_mem (run : Run ring effect rs es rs') :
    ∀ job ∈ rs'.pending, job ∈ rs.pending ∨ job ∈ accepted es := by
  induction run with
  | nil =>
      intro job member
      exact .inl member
  | @cons rs e rs₁ es rs' step _ ih =>
      intro job member
      have earlier := ih job member
      cases step with
      | accept => simpa [or_assoc] using earlier
      | finish _ _ =>
          rcases earlier with pending | later
          · refine .inl ?_
            simp only [List.mem_append, List.mem_cons] at pending ⊢
            tauto
          · exact .inr later

/-- Only what was pending or accepted finishes. -/
theorem finished_mem (run : Run ring effect rs es rs') :
    ∀ job ∈ finished es, job ∈ rs.pending ∨ job ∈ accepted es := by
  induction run with
  | nil =>
      intro job member
      exact absurd member List.not_mem_nil
  | @cons rs e rs₁ es rs' step _ ih =>
      intro job member
      cases step with
      | accept => simpa [or_assoc] using ih job member
      | @finish before last after s s' _ _ =>
          rcases List.mem_cons.mp member with rfl | later
          · exact .inl (by simp)
          · rcases ih job later with pending | accepted
            · refine .inl ?_
              simp only [List.mem_append, List.mem_cons] at pending ⊢
              tauto
            · exact .inr accepted

/-- **A ring is a queue.** For jobs of one ring, what was pending and what was
accepted are what has finished and what is left, in this order. -/
theorem fifo (run : Run ring effect rs es rs') {mine : α → Prop} [DecidablePred mine]
    (same : ∀ job other, mine job → mine other → ring job = ring other) :
    rs.pending.filter mine ++ (accepted es).filter mine =
      (finished es).filter mine ++ rs'.pending.filter mine := by
  induction run with
  | nil => simp
  | @cons rs e rs₁ es rs' step _ ih =>
      cases step with
      | @accept _ job =>
          have next : (job :: accepted es).filter mine =
              [job].filter mine ++ (accepted es).filter mine := by
            rw [← List.filter_append]
            rfl
          rw [accepted_accept, finished_accept, ← ih, next]
          show _ = (rs.pending ++ [job]).filter mine ++ _
          rw [List.filter_append, List.append_assoc]
      | @finish before job after s s' first _ =>
          rw [accepted_finish, finished_finish]
          by_cases own : mine job
          · -- nothing ahead of it is of interest, so it was first among those that are
            have ahead : before.filter mine = [] := by
              refine List.filter_eq_nil_iff.mpr fun other member isMine => ?_
              exact first other member (same other job (of_decide_eq_true isMine) own)
            simp only [List.filter_append, ahead, List.nil_append, List.filter_cons, own,
              decide_true, if_true, List.cons_append] at ih ⊢
            rw [ih]
          · simp only [List.filter_append, List.filter_cons, own, decide_false] at ih ⊢
            simpa using ih

/-- Once a job of the ring is gone, so is everything the ring had before it. -/
theorem drained (run : Run ring effect rs es rs') (mine : α → Prop) [DecidablePred mine]
    (same : ∀ job other, mine job → mine other → ring job = ring other)
    {before after : List α} {job : α}
    (queued : rs.pending.filter mine ++ (accepted es).filter mine = before ++ job :: after)
    (gone : job ∉ rs'.pending) : rs'.pending.filter mine <:+ after := by
  have split := run.fifo same
  rw [queued] at split
  have notLeft : job ∉ rs'.pending.filter mine := fun member =>
    gone (List.mem_of_mem_filter member)
  rcases List.append_eq_append_iff.mp split with ⟨more, done, left⟩ | ⟨more, done, left⟩
  · cases more with
    | nil =>
        rw [List.nil_append] at left
        exact absurd (left ▸ List.mem_cons_self) notLeft
    | cons first more =>
        obtain ⟨-, left⟩ := List.cons.inj left
        exact ⟨more, left.symm⟩
  · exact absurd (left ▸ List.mem_append_right more List.mem_cons_self) notLeft

/-- Once the last job of the ring is gone, the ring is empty and has finished
what it had, in order. -/
theorem emptied (run : Run ring effect rs es rs') {mine : α → Prop} [DecidablePred mine]
    (same : ∀ job other, mine job → mine other → ring job = ring other) {init : List α} {last : α}
    (own : (accepted es).filter mine = init ++ [last]) (gone : last ∉ rs'.pending) :
    rs'.pending.filter mine = [] ∧
      (finished es).filter mine = rs.pending.filter mine ++ (init ++ [last]) := by
  have queued : rs.pending.filter mine ++ (accepted es).filter mine =
      (rs.pending.filter mine ++ init) ++ last :: [] := by
    rw [own, List.append_assoc]
  have nothing : rs'.pending.filter mine = [] :=
    List.eq_nil_of_suffix_nil (run.drained mine same queued gone)
  have fifo := run.fifo same
  rw [own, nothing, List.append_nil] at fifo
  exact ⟨nothing, fifo.symm⟩

/-- **What the jobs of interest make of the state.** `sees t s` says that the
state `s` looks like `t`. A job of interest acts on `t`; the others that finish
do not show. -/
theorem simulates {τ : Type} (run : Run ring effect rs es rs') (mine : α → Prop)
    [DecidablePred mine] (sees : τ → σ → Prop) (act : τ → α → τ)
    (own : ∀ job ∈ finished es, mine job → ∀ t s s', effect job s s' → sees t s →
      sees (act t job) s')
    (others : ∀ job ∈ finished es, ¬ mine job → ∀ t s s', effect job s s' → sees t s → sees t s')
    {t : τ} (start : sees t rs.state) :
    sees (((finished es).filter mine).foldl act t) rs'.state := by
  induction run generalizing t with
  | nil => exact start
  | @cons rs e rs₁ es rs' step _ ih =>
      cases step with
      | accept => exact ih own others start
      | @finish before job after s s' _ does =>
          rw [finished_finish, List.forall_mem_cons] at own others
          by_cases isMine : mine job
          · rw [finished_finish, List.filter_cons_of_pos (by simpa using isMine), List.foldl_cons]
            exact ih own.2 others.2 (own.1 isMine t s s' does start)
          · rw [finished_finish, List.filter_cons_of_neg (by simpa using isMine)]
            exact ih own.2 others.2 (others.1 isMine t s s' does start)

/-- What every job that finishes keeps holds in the end. -/
theorem keeps {P : σ → Prop} (run : Run ring effect rs es rs')
    (kept : ∀ job ∈ finished es, ∀ s s', effect job s s' → P s → P s') (start : P rs.state) :
    P rs'.state :=
  run.simulates (fun _ => False) (fun (_ : Unit) s => P s) (fun t _ => t)
    (fun _ _ mine => mine.elim) (fun job member _ _ s s' does => kept job member s s' does)
    (t := ()) start

/-- If the others change nothing, the jobs of interest act one after the other. -/
theorem serial (run : Run ring effect rs es rs') (mine : α → Prop) [DecidablePred mine]
    (others : ∀ job ∈ finished es, ¬ mine job → ∀ s s', effect job s s' → s' = s) :
    Serial effect ((finished es).filter mine) rs.state rs'.state := by
  induction run with
  | nil => exact .nil
  | @cons rs e rs₁ es rs' step _ ih =>
      cases step with
      | accept => exact ih others
      | @finish before job after s s' _ does =>
          rw [finished_finish, List.forall_mem_cons] at others
          have later := ih others.2
          by_cases isMine : mine job
          · rw [finished_finish, List.filter_cons_of_pos (by simpa using isMine)]
            exact .cons does later
          · rw [finished_finish, List.filter_cons_of_neg (by simpa using isMine)]
            obtain rfl := others.1 isMine s s' does
            exact later

/-- A run can be cut after any number of the jobs of interest it finishes. -/
theorem cut (run : Run ring effect rs es rs') {mine : α → Prop} [DecidablePred mine]
    {first second : List α} (done : (finished es).filter mine = first ++ second) :
    ∃ es₁ es₂ rs₁, es = es₁ ++ es₂ ∧ Run ring effect rs es₁ rs₁ ∧ Run ring effect rs₁ es₂ rs' ∧
      (finished es₁).filter mine = first ∧ (finished es₂).filter mine = second := by
  rw [finished, List.filter_filterMap] at done
  obtain ⟨es₁, es₂, rfl, early, late⟩ := List.filterMap_eq_append_iff.mp done
  obtain ⟨rs₁, before, after⟩ := run.split
  refine ⟨es₁, es₂, rs₁, rfl, before, after, ?_, ?_⟩
  · rw [finished, List.filter_filterMap]
    exact early
  · rw [finished, List.filter_filterMap]
    exact late

end Run

/-! ## How much is ahead -/

/-- How many jobs are pending up to the last one of interest. -/
def ahead (mine : α → Bool) : List α → Nat
  | [] => 0
  | job :: jobs => if ahead mine jobs = 0 ∧ mine job = false then 0 else ahead mine jobs + 1

theorem ahead_eq_zero {mine : α → Bool} {jobs : List α} :
    ahead mine jobs = 0 ↔ ∀ job ∈ jobs, mine job = false := by
  induction jobs with
  | nil => simp [ahead]
  | cons job jobs ih =>
      rw [ahead, List.forall_mem_cons, ← ih]
      by_cases nothing : ahead mine jobs = 0 ∧ mine job = false
      · rw [if_pos nothing]
        exact iff_of_true rfl nothing.symm
      · rw [if_neg nothing]
        exact iff_of_false (Nat.succ_ne_zero _) fun both => nothing both.symm

/-- The first job is one of those ahead, unless nothing of interest is pending. -/
theorem ahead_cons {mine : α → Bool} {job : α} {jobs : List α}
    (some : ahead mine (job :: jobs) ≠ 0) :
    ahead mine (job :: jobs) = ahead mine jobs + 1 := by
  rw [ahead] at some ⊢
  by_cases nothing : ahead mine jobs = 0 ∧ mine job = false
  · rw [if_pos nothing] at some
    exact absurd rfl some
  · exact if_neg nothing

theorem ahead_le_length {mine : α → Bool} (jobs : List α) : ahead mine jobs ≤ jobs.length := by
  induction jobs with
  | nil => exact Nat.le_refl 0
  | cons job jobs ih =>
      rw [ahead, List.length_cons]
      split <;> omega

/-- A job without interest at the end adds nothing. -/
theorem ahead_concat {mine : α → Bool} {job : α} (jobs : List α) (other : mine job = false) :
    ahead mine (jobs ++ [job]) = ahead mine jobs := by
  induction jobs with
  | nil => simp [ahead, other]
  | cons first jobs ih => rw [List.cons_append, ahead, ahead, ih]

/-- Taking a job out leaves no more ahead. -/
theorem ahead_remove_le {mine : α → Bool} {job : α} (before after : List α) :
    ahead mine (before ++ after) ≤ ahead mine (before ++ job :: after) := by
  induction before with
  | nil =>
      rw [List.nil_append, List.nil_append, ahead]
      split <;> omega
  | cons first before ih =>
      rw [List.cons_append, List.cons_append, ahead, ahead]
      by_cases nothing : ahead mine (before ++ after) = 0 ∧ mine first = false
      · rw [if_pos nothing]
        exact Nat.zero_le _
      · have something : ¬ (ahead mine (before ++ job :: after) = 0 ∧ mine first = false) :=
          fun both => nothing ⟨Nat.le_zero.mp (both.1 ▸ ih), both.2⟩
        rw [if_neg nothing, if_neg something]
        exact Nat.succ_le_succ ih

/-- As long as nothing of interest is accepted, no more comes ahead. -/
theorem Run.ahead_le {ring : α → ρ} {effect : α → σ → σ → Prop} {rs rs' : Rings α σ}
    {es : List (RingEvent α)} (run : Run ring effect rs es rs') {mine : α → Bool}
    (others : ∀ job ∈ accepted es, mine job = false) :
    ahead mine rs'.pending ≤ ahead mine rs.pending := by
  induction run with
  | nil => exact Nat.le_refl _
  | @cons rs e rs₁ es rs' step _ ih =>
      cases step with
      | accept =>
          rw [accepted_accept, List.forall_mem_cons] at others
          have later := ih others.2
          rwa [ahead_concat _ others.1] at later
      | @finish before job after s s' _ _ =>
          exact Nat.le_trans (ih others) (ahead_remove_le before after)

end Rings

end RadeonsiCompute.Lib
