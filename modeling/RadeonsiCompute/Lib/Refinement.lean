import RadeonsiCompute.Lib.TSys

/-!
# Refinement

A system refines a specification through an abstraction function when its steps,
seen through the function, are steps of the specification under the same labels.
What the labels say about a run of the one then says it about a run of the other.
-/

namespace RadeonsiCompute.Lib.TSys

variable {σ τ ι : Type}

/-- Several steps, with their labels. -/
inductive Run (sys : TSys σ ι) : σ → List ι → σ → Prop
  | nil {s} : Run sys s [] s
  | cons {s i s₁ is s'} : sys.step s i s₁ → Run sys s₁ is s' → Run sys s (i :: is) s'

namespace Run

variable {sys : TSys σ ι} {s s₁ s' : σ} {i : ι} {is is' : List ι}

theorem single (step : sys.step s i s') : sys.Run s [i] s' := .cons step .nil

theorem append (first : sys.Run s is s₁) (second : sys.Run s₁ is' s') :
    sys.Run s (is ++ is') s' := by
  induction first with
  | nil => exact second
  | cons step _ ih => exact .cons step (ih second)

/-- A run can be cut anywhere. -/
theorem split (run : sys.Run s (is ++ is') s') : ∃ s₁, sys.Run s is s₁ ∧ sys.Run s₁ is' s' := by
  induction is generalizing s with
  | nil => exact ⟨s, .nil, run⟩
  | cons i is ih =>
      cases run with
      | cons step rest =>
          obtain ⟨s₁, first, second⟩ := ih rest
          exact ⟨s₁, .cons step first, second⟩

theorem reachable (run : sys.Run s is s') (reach : sys.Reachable s) : sys.Reachable s' := by
  induction run with
  | nil => exact reach
  | cons step _ ih => exact ih (.step reach step)

/-- What every label of the run keeps holds at its end. -/
theorem keeps {P : σ → Prop} (run : sys.Run s is s')
    (step : ∀ i ∈ is, ∀ s s', sys.step s i s' → P s → P s') (start : P s) : P s' := by
  induction run with
  | nil => exact start
  | @cons s i s₁ is s' one _ ih =>
      rw [List.forall_mem_cons] at step
      exact ih step.2 (step.1 s s₁ one start)

end Run

/-- Under the invariant `P`, the steps of `sys` are steps of `spec` seen
through `abs`. -/
structure Refines (sys : TSys σ ι) (spec : TSys τ ι) (P : σ → Prop) (abs : σ → τ) : Prop where
  inv : sys.Inductive P
  init : ∀ s, sys.init s → spec.init (abs s)
  step : ∀ s i s', P s → P s' → sys.step s i s' → spec.step (abs s) i (abs s')

/-- So are its runs. -/
theorem Refines.run {sys : TSys σ ι} {spec : TSys τ ι} {P : σ → Prop} {abs : σ → τ}
    (refines : sys.Refines spec P abs) {s s' : σ} {is : List ι} (run : sys.Run s is s')
    (start : P s) : spec.Run (abs s) is (abs s') := by
  induction run with
  | nil => exact .nil
  | cons step _ ih =>
      have next := refines.inv.step _ _ _ start step
      exact .cons (refines.step _ _ _ start next step) (ih next)

/-! ## Assertions -/

/-- The rules a run is reasoned with: assertions step under the labels that lead
from the one to the other. -/
def asserting (sys : TSys σ ι) : TSys (σ → Prop) ι where
  init P := ∀ s, sys.init s → P s
  step P i Q := ∀ s s', sys.step s i s' → P s → Q s'

/-- **What the rules derive holds at the end of the run.** -/
theorem Run.asserts {sys : TSys σ ι} {P Q : σ → Prop} {is : List ι}
    (derivation : sys.asserting.Run P is Q) :
    ∀ {s s' : σ}, sys.Run s is s' → P s → Q s' := by
  induction derivation with
  | nil =>
      intro s s' run start
      cases run with
      | nil => exact start
  | cons rule _ ih =>
      intro s s' run start
      cases run with
      | cons step rest => exact ih rest (rule _ _ step start)

/-- An assertion that every label keeps is kept by all of them. -/
theorem asserting_keeps {sys : TSys σ ι} {P : σ → Prop} {is : List ι}
    (keeps : ∀ i ∈ is, sys.asserting.step P i P) : sys.asserting.Run P is P := by
  induction is with
  | nil => exact .nil
  | cons i is ih =>
      rw [List.forall_mem_cons] at keeps
      exact .cons keeps.1 (ih keeps.2)

/-- Two derivations about the same labels are one. -/
theorem asserting_and {sys : TSys σ ι} {P P' Q Q' : σ → Prop} {is : List ι}
    (first : sys.asserting.Run P is Q) (second : sys.asserting.Run P' is Q') :
    sys.asserting.Run (fun s => P s ∧ P' s) is fun s => Q s ∧ Q' s := by
  induction first generalizing P' with
  | nil =>
      cases second with
      | nil => exact .nil
  | cons rule _ ih =>
      cases second with
      | cons rule' rest =>
          refine .cons ?_ (ih rest)
          rintro s s' step ⟨holds, holds'⟩
          exact ⟨rule s s' step holds, rule' s s' step holds'⟩

/-- Steps that are known by what they do. -/
def relating (σ : Type) : TSys σ (σ → σ → Prop) where
  init _ := True
  step s r s' := r s s'

end RadeonsiCompute.Lib.TSys
