import Mathlib.Data.List.Basic
import Mathlib.Tactic.Cases
import Mathlib.Tactic.Common

/-!
# Properties of traces

What holds at every point of a trace of events that act on a state, and the
discipline of things that are taken and given back in a trace: each is given
back, and in the reverse order of taking.
-/

namespace RadeonsiCompute.Lib

/-! ## Every point of a trace -/

section Always

variable {σ ε : Type} (act : σ → ε → σ) (p : σ → Prop)

/-- The property holds at the start and after each of the events. -/
def Always (s : σ) : List ε → Prop
  | [] => p s
  | e :: t => p s ∧ Always (act s e) t

/-- A trace can be checked point by point. -/
instance decidableAlways [DecidablePred p] :
    (s : σ) → (t : List ε) → Decidable (Always act p s t)
  | s, [] => inferInstanceAs (Decidable (p s))
  | s, e :: t =>
      have := decidableAlways (act s e) t
      inferInstanceAs (Decidable (p s ∧ Always act p (act s e) t))

variable {act p} {s : σ} {t u : List ε}

theorem always_cons {e : ε} : Always act p s (e :: t) ↔ p s ∧ Always act p (act s e) t := Iff.rfl

theorem Always.start (always : Always act p s t) : p s := by
  cases t with
  | nil => exact always
  | cons e t => exact always.1

/-- It holds along one trace and then along another. -/
theorem always_append :
    Always act p s (t ++ u) ↔ Always act p s t ∧ Always act p (t.foldl act s) u := by
  induction t generalizing s with
  | nil => exact ⟨fun later => ⟨later.start, later⟩, fun both => both.2⟩
  | cons e t ih =>
      rw [List.cons_append, always_cons, always_cons, ih, and_assoc]
      rfl

/-- Events that do nothing leave one point only. -/
theorem always_of_still (still : ∀ e ∈ t, ∀ s, act s e = s) : Always act p s t ↔ p s := by
  induction t with
  | nil => exact Iff.rfl
  | cons e t ih =>
      rw [List.forall_mem_cons] at still
      rw [always_cons, still.1, ih still.2, and_self]

theorem foldl_of_still (still : ∀ e ∈ t, ∀ s, act s e = s) : t.foldl act s = s := by
  induction t with
  | nil => rfl
  | cons e t ih =>
      rw [List.forall_mem_cons] at still
      rw [List.foldl_cons, still.1, ih still.2]

theorem always_still_append (still : ∀ e ∈ t, ∀ s, act s e = s) :
    Always act p s (t ++ u) ↔ Always act p s u := by
  rw [always_append, always_of_still still, foldl_of_still still]
  exact ⟨fun both => both.2, fun later => ⟨later.start, later⟩⟩

theorem Always.finish (always : Always act p s t) : p (t.foldl act s) := by
  induction t generalizing s with
  | nil => exact always
  | cons e t ih => exact ih always.2

theorem always_append_still (still : ∀ e ∈ u, ∀ s, act s e = s) :
    Always act p s (t ++ u) ↔ Always act p s t := by
  rw [always_append, always_of_still still]
  exact ⟨fun both => both.1, fun always => ⟨always, always.finish⟩⟩

end Always

/-! ## Taking and giving back -/

/-- What an event does to the things that can be held. -/
inductive Bracket (α : Type)
  | takes (a : α)
  | gives (a : α)
  | other
  deriving DecidableEq

namespace Bracket

variable {α ε : Type} [DecidableEq α]

/-- Only the thing taken last can be given back. -/
def step : List α → Bracket α → Option (List α)
  | held, takes a => some (a :: held)
  | [], gives _ => none
  | b :: held, gives a => if b = a then some held else none
  | held, other => some held

variable (kind : ε → Bracket α)

/-- What is held after a trace, the thing taken last in front. -/
def run : List α → List ε → Option (List α)
  | held, [] => some held
  | held, e :: t => (step held (kind e)).bind fun held => run held t

/-- The trace gives back what it takes, and nothing else, whatever is held before. -/
def Neutral (t : List ε) : Prop := ∀ held, run kind held t = some held

variable {kind} {a : α} {e e' : ε} {t u : List ε} {held : List α}

theorem run_append :
    run kind held (t ++ u) = (run kind held t).bind fun held => run kind held u := by
  induction t generalizing held with
  | nil => rfl
  | cons e t ih =>
      rw [List.cons_append, run, run, Option.bind_assoc]
      congr 1
      funext held
      exact ih

theorem run_takes (taken : kind e = takes a) : run kind held (e :: t) = run kind (a :: held) t := by
  rw [run, taken]
  rfl

theorem run_gives (given : kind e = gives a) : run kind (a :: held) (e :: t) = run kind held t := by
  rw [run, given, step, if_pos rfl]
  rfl

theorem Neutral.append (left : Neutral kind t) (right : Neutral kind u) :
    Neutral kind (t ++ u) := by
  intro held
  rw [run_append, left held]
  exact right held

theorem neutral_of_other (others : ∀ e ∈ t, kind e = other) : Neutral kind t := by
  intro held
  induction t with
  | nil => rfl
  | cons e t ih =>
      rw [List.forall_mem_cons] at others
      rw [run, others.1]
      exact ih others.2

/-- Take something, do what gives back all it takes, and give it back. -/
theorem Neutral.wrap (inner : Neutral kind t) (taken : kind e = takes a)
    (given : kind e' = gives a) : Neutral kind (e :: (t ++ [e'])) := by
  intro held
  rw [run_takes taken, run_append, inner]
  show run kind (a :: held) [e'] = some held
  rw [run_gives given]
  rfl

/-! ## What is held meanwhile -/

variable (kind) in
/-- Whenever an event of interest happens, exactly these are held. -/
def Under (wanted : ε → Prop) (need held : List α) (t : List ε) : Prop :=
  ∀ pre e post, t = pre ++ e :: post → wanted e → run kind held pre = some need

variable {wanted : ε → Prop} {need held' : List α}

theorem under_of_not (none : ∀ e ∈ t, ¬ wanted e) : Under kind wanted need held t := by
  rintro pre e post rfl here
  exact absurd here (none e (by simp))

/-- As long as nothing is taken or given back, what is needed stays held. -/
theorem under_of_other (others : ∀ e ∈ t, kind e = other) : Under kind wanted need need t := by
  rintro pre e post rfl _
  exact neutral_of_other (fun e' before => others e' (List.mem_append_left _ before)) need

theorem Under.append (first : Under kind wanted need held t) (runs : run kind held t = some held')
    (second : Under kind wanted need held' u) : Under kind wanted need held (t ++ u) := by
  intro pre e post split here
  rcases List.append_eq_append_iff.mp split with ⟨more, rfl, inSecond⟩ | ⟨more, inFirst, inSecond⟩
  · rw [run_append, runs]
    exact second more e post inSecond here
  · cases more with
    | nil =>
        rw [List.append_nil] at inFirst
        have now := second [] e post inSecond.symm here
        rw [← inFirst, runs]
        exact now
    | cons e' more =>
        obtain ⟨rfl, -⟩ := List.cons.inj inSecond
        exact first pre e more inFirst here

end Bracket

end RadeonsiCompute.Lib
