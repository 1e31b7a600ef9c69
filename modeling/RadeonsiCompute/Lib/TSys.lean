/-!
# Transition systems

Reachability over labelled steps and the one induction every safety result
goes through: what holds initially and is kept by each step holds throughout.
-/

namespace RadeonsiCompute.Lib

/-- States `σ` that step under labels `ι`. -/
structure TSys (σ ι : Type) where
  init : σ → Prop
  step : σ → ι → σ → Prop

namespace TSys

variable {σ ι : Type}

inductive Reachable (sys : TSys σ ι) : σ → Prop
  | init {s} : sys.init s → Reachable sys s
  | step {s i s'} : Reachable sys s → sys.step s i s' → Reachable sys s'

/-- A property that holds initially and is kept by every step. -/
structure Inductive (sys : TSys σ ι) (P : σ → Prop) : Prop where
  init : ∀ s, sys.init s → P s
  step : ∀ s i s', P s → sys.step s i s' → P s'

theorem Inductive.invariant {sys : TSys σ ι} {P : σ → Prop} (h : sys.Inductive P)
    {s : σ} (reach : sys.Reachable s) : P s := by
  induction reach with
  | init hinit => exact h.init _ hinit
  | step _ hstep ih => exact h.step _ _ _ ih hstep

/-- A run computed step by step, each of its steps being one of the system. -/
theorem Reachable.foldlM {sys : TSys σ ι} {next : σ → ι → Option σ}
    (sound : ∀ s i s', next s i = some s' → sys.step s i s') (is : List ι) :
    ∀ {s s' : σ}, sys.Reachable s → is.foldlM next s = some s' → sys.Reachable s' := by
  induction is with
  | nil =>
      intro s s' reach same
      obtain rfl : s = s' := by simpa using same
      exact reach
  | cons i is ih =>
      intro s s' reach fold
      rw [List.foldlM_cons] at fold
      obtain ⟨s₁, one, rest⟩ := Option.bind_eq_some_iff.mp fold
      exact ih (.step reach (sound s i s₁ one)) rest

end TSys

end RadeonsiCompute.Lib
