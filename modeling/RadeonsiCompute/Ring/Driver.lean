import RadeonsiCompute.Cs.Wait
import RadeonsiCompute.Lib.Rings

/-!
# What the library relies on in the driver's rings

The driver queues submissions and the hardware works them off behind the
caller's back. `CsDrm.InOrder` says what the waiting code builds on: a ring
finishes its submissions in order, `GEM_WAIT_IDLE` says 0 only when nothing
that lists the handle is left, and no more than `patience` waits time out while
the hardware is at one submission. Other processes may submit at any time. Under
this the retry loop ends, and what is behind it never says `-EBUSY`
(`InOrder.patient`).
-/

namespace RadeonsiCompute

open Lib

/-- A submission in the driver's queues, with the descriptor it came on. -/
structure Job where
  fd : Nat
  cs : RadeonCs
  deriving DecidableEq

namespace Job

def ring (job : Job) : Option Dword := job.cs.ring

/-- The submission came on the descriptor and lists the object. -/
def Lists (job : Job) (fd handle : Nat) : Prop :=
  job.fd = fd ∧ BitVec.ofNat 32 handle ∈ job.cs.handles

instance (job : Job) (fd handle : Nat) : Decidable (job.Lists fd handle) :=
  inferInstanceAs (Decidable (_ ∧ _))

end Job

variable {κ σ : Type}

section Leads

variable (effect : Job → σ → σ → Prop) (view : κ → Rings Job σ)

/-- The driver went from `k` to `k'` and on the way accepted `jobs`, in this
order, from descriptor `fd`. -/
def Leads (fd : Nat) (k : κ) (jobs : List Job) (k' : κ) : Prop :=
  ∃ es, Rings.Run Job.ring effect (view k) es (view k') ∧
    (Rings.accepted es).filter (fun job => job.fd = fd) = jobs

variable {effect view} {fd : Nat} {k k' k'' : κ} {jobs jobs' : List Job}

theorem Leads.refl (fd : Nat) (k : κ) : Leads effect view fd k [] k := ⟨[], .nil, rfl⟩

theorem Leads.trans (first : Leads effect view fd k jobs k')
    (second : Leads effect view fd k' jobs' k'') :
    Leads effect view fd k (jobs ++ jobs') k'' := by
  obtain ⟨es, run, rfl⟩ := first
  obtain ⟨es', run', rfl⟩ := second
  refine ⟨es ++ es', run.append run', ?_⟩
  rw [Rings.accepted_append, List.filter_append]

end Leads

/-- From `k` on so many waits in a row time out, the last in `k'`. -/
def CsDrm.TimesOut (drm : CsDrm κ) (fd handle : Nat) : Nat → κ → κ → Prop
  | 0, k, k' => k' = k
  | n + 1, k, k' => (drm.waitIdle fd handle k).1 = eBusy ∧
      drm.TimesOut fd handle n (drm.waitIdle fd handle k).2 k'

/-- A driver with rings that finish in order. `view` is what it has queued and
the memory the submissions work on. When more than `patience` waits in a row
time out, some of what they wait for has finished meanwhile. -/
structure CsDrm.InOrder (drm : CsDrm κ) (effect : Job → σ → σ → Prop) (view : κ → Rings Job σ)
    (patience : Nat) : Prop where
  taken : ∀ fd cs k, (drm.cs fd cs k).1 = 0 →
    Leads effect view fd k [⟨fd, cs⟩] (drm.cs fd cs k).2
  refused : ∀ fd cs k, (drm.cs fd cs k).1 ≠ 0 → Leads effect view fd k [] (drm.cs fd cs k).2
  waited : ∀ fd handle k, Leads effect view fd k [] (drm.waitIdle fd handle k).2
  idle : ∀ fd handle k, (drm.waitIdle fd handle k).1 = 0 →
    ∀ job ∈ (view (drm.waitIdle fd handle k).2).pending, ¬ job.Lists fd handle
  progress : ∀ fd handle k k', drm.TimesOut fd handle (patience + 1) k k' →
    Rings.ahead (fun job => job.Lists fd handle) (view k').pending <
      Rings.ahead (fun job => job.Lists fd handle) (view k).pending

/-- Rounds that are enough for the retry loop. -/
def retryRounds (view : κ → Rings Job σ) (patience fd handle : Nat) (k : κ) : Nat :=
  (Rings.ahead (fun job => job.Lists fd handle) (view k).pending + 1) * (patience + 1)

namespace CsDrm.InOrder

variable {drm : CsDrm κ} {effect : Job → σ → σ → Prop} {view : κ → Rings Job σ} {patience : Nat}

/-- The loop ends within `n` rounds, or each of them times out. -/
theorem waitIdleLoop_rounds (inOrder : drm.InOrder effect view patience) (fd handle m n : Nat) :
    ∀ k, (∃ ret k', waitIdleLoop drm fd handle (n + m) k = .ok (ret, k') ∧ ret ≠ eBusy ∧
        Leads effect view fd k [] k' ∧
        (ret = 0 → ∀ job ∈ (view k').pending, ¬ job.Lists fd handle)) ∨
      ∃ k', drm.TimesOut fd handle n k k' ∧ Leads effect view fd k [] k' ∧
        waitIdleLoop drm fd handle (n + m) k = waitIdleLoop drm fd handle m k' := by
  induction n with
  | zero => intro k; exact .inr ⟨k, rfl, .refl fd k, by rw [Nat.zero_add]⟩
  | succ n ih =>
      intro k
      have leads := inOrder.waited fd handle k
      have idle := inOrder.idle fd handle k
      rw [show n + 1 + m = n + m + 1 by omega]
      generalize answer : drm.waitIdle fd handle k = reply at leads idle
      obtain ⟨ret, k₁⟩ := reply
      simp only [waitIdleLoop, CsDrm.TimesOut, answer]
      by_cases busy : ret = eBusy
      · rw [if_pos busy]
        rcases ih k₁ with ⟨ret', k', run, done, later, idle'⟩ | ⟨k', timesOut, later, same⟩
        · exact .inl ⟨ret', k', run, done, leads.trans later, idle'⟩
        · exact .inr ⟨k', ⟨busy, timesOut⟩, leads.trans later, same⟩
      · rw [if_neg busy]
        exact .inl ⟨ret, k₁, rfl, busy, leads, idle⟩

/-- **The retry loop ends.** Its answer does not depend on how many rounds it
was given beyond those it needs. -/
theorem waitIdleLoop_ends (inOrder : drm.InOrder effect view patience) (fd handle : Nat) :
    ∀ (fuel : Nat) (k : κ), retryRounds view patience fd handle k ≤ fuel →
      ∃ ret k', waitIdleLoop drm fd handle fuel k = .ok (ret, k') ∧ ret ≠ eBusy ∧
        Leads effect view fd k [] k' ∧
        (ret = 0 → ∀ job ∈ (view k').pending, ¬ job.Lists fd handle) := by
  suffices within : ∀ n k fuel, Rings.ahead (fun job => job.Lists fd handle) (view k).pending < n →
      retryRounds view patience fd handle k ≤ fuel →
      ∃ ret k', waitIdleLoop drm fd handle fuel k = .ok (ret, k') ∧ ret ≠ eBusy ∧
        Leads effect view fd k [] k' ∧
        (ret = 0 → ∀ job ∈ (view k').pending, ¬ job.Lists fd handle) from
    fun fuel k enough => within _ k fuel (Nat.lt_succ_self _) enough
  intro n
  induction n with
  | zero => intro k fuel none; exact absurd none (Nat.not_lt_zero _)
  | succ n ih =>
      intro k fuel ahead enough
      have one : patience + 1 ≤ fuel :=
        Nat.le_trans (Nat.le_mul_of_pos_left _ (Nat.succ_pos _)) enough
      obtain ⟨m, rfl⟩ := Nat.exists_eq_add_of_le one
      rcases inOrder.waitIdleLoop_rounds fd handle m (patience + 1) k with
        ended | ⟨k₁, timesOut, leads, same⟩
      · exact ended
      · -- what is ahead got shorter, so the remaining rounds are enough
        have less := inOrder.progress fd handle k k₁ timesOut
        have rounds : retryRounds view patience fd handle k₁ ≤ m := by
          have fewer := Nat.mul_le_mul_right (patience + 1) (Nat.succ_le_of_lt less)
          unfold retryRounds at enough ⊢
          rw [Nat.add_mul (Rings.ahead _ (view k).pending), Nat.one_mul] at enough
          rw [Nat.succ_eq_add_one] at fewer
          omega
        obtain ⟨ret, k', run, done, later, idle⟩ := ih k₁ m (by omega) rounds
        exact ⟨ret, k', by rw [same, run], done, leads.trans later, idle⟩

/-- More rounds than needed change nothing. -/
theorem waitIdleLoop_mono {fd handle : Nat} {fuel : Nat} :
    ∀ {k : κ} {answer : Int × κ}, waitIdleLoop drm fd handle fuel k = .ok answer →
      ∀ more, fuel ≤ more → waitIdleLoop drm fd handle more k = .ok answer := by
  induction fuel with
  | zero => intro k answer run; exact nomatch run
  | succ fuel ih =>
      intro k answer run more enough
      obtain ⟨more, rfl⟩ : ∃ n, more = n + 1 := ⟨more - 1, by omega⟩
      simp only [waitIdleLoop] at run ⊢
      by_cases busy : (drm.waitIdle fd handle k).1 = eBusy
      · rw [if_pos busy] at run ⊢
        exact ih run more (by omega)
      · rw [if_neg busy] at run ⊢
        exact run

/-- The driver behind the loop answers as the loop does. -/
theorem patient_waitIdle (inOrder : drm.InOrder effect view patience) (fd handle : Nat) (k : κ)
    {fuel : Nat} (enough : retryRounds view patience fd handle k ≤ fuel) :
    waitIdleLoop drm fd handle fuel k =
      .ok ((drm.patient (retryRounds view patience)).waitIdle fd handle k) := by
  obtain ⟨ret, k', run, -⟩ :=
    inOrder.waitIdleLoop_ends fd handle _ k (Nat.le_refl _)
  have same : (drm.patient (retryRounds view patience)).waitIdle fd handle k = (ret, k') := by
    simp only [CsDrm.patient, run]
  rw [same]
  exact waitIdleLoop_mono run fuel enough

/-- What the loop answers, the driver answered. -/
theorem waitIdleLoop_answer {drm : CsDrm κ} {fd handle : Nat} {fuel : Nat} :
    ∀ {k : κ} {answer : Int × κ}, waitIdleLoop drm fd handle fuel k = .ok answer →
      ∃ k₁, drm.waitIdle fd handle k₁ = answer := by
  induction fuel with
  | zero => intro k answer run; exact nomatch run
  | succ fuel ih =>
      intro k answer run
      simp only [waitIdleLoop] at run
      by_cases busy : (drm.waitIdle fd handle k).1 = eBusy
      · rw [if_pos busy] at run
        exact ih run
      · rw [if_neg busy] at run
        exact ⟨k, Except.ok.inj run⟩

/-- Behind the loop the driver keeps its promises, and is never busy. -/
theorem patient (inOrder : drm.InOrder effect view patience) :
    (drm.patient (retryRounds view patience)).InOrder effect view patience ∧
      ∀ fd handle k,
        ((drm.patient (retryRounds view patience)).waitIdle fd handle k).1 ≠ eBusy := by
  have answers : ∀ fd handle k, ∃ ret k', ret ≠ eBusy ∧
      (drm.patient (retryRounds view patience)).waitIdle fd handle k = (ret, k') ∧
      Leads effect view fd k [] k' ∧
      (ret = 0 → ∀ job ∈ (view k').pending, ¬ job.Lists fd handle) := by
    intro fd handle k
    obtain ⟨ret, k', run, done, leads, idle⟩ :=
      inOrder.waitIdleLoop_ends fd handle _ k (Nat.le_refl _)
    refine ⟨ret, k', done, ?_, leads, idle⟩
    simp only [CsDrm.patient, run]
  have never : ∀ fd handle k,
      ((drm.patient (retryRounds view patience)).waitIdle fd handle k).1 ≠ eBusy := by
    intro fd handle k
    obtain ⟨ret, k', done, same, -⟩ := answers fd handle k
    rw [same]
    exact done
  refine ⟨⟨inOrder.taken, inOrder.refused, ?_, ?_, ?_⟩, never⟩
  · intro fd handle k
    obtain ⟨ret, k', -, same, leads, -⟩ := answers fd handle k
    rw [same]
    exact leads
  · intro fd handle k
    obtain ⟨ret, k', -, same, -, idle⟩ := answers fd handle k
    rw [same]
    exact idle
  · intro fd handle k k' timesOut
    exact absurd timesOut.1 (never fd handle k)

end CsDrm.InOrder

/-- A driver that takes every submission and whose waits do not fail. -/
structure CsDrm.Grants (drm : CsDrm κ) : Prop where
  cs : ∀ fd cs k, (drm.cs fd cs k).1 = 0
  waitIdle : ∀ fd handle k, (drm.waitIdle fd handle k).1 = 0 ∨
    (drm.waitIdle fd handle k).1 = eBusy

theorem CsDrm.Grants.patient_waitIdle {drm : CsDrm κ} {effect : Job → σ → σ → Prop}
    {view : κ → Rings Job σ} {patience : Nat} (grants : drm.Grants)
    (inOrder : drm.InOrder effect view patience) (fd handle : Nat) (k : κ) :
    ((drm.patient (retryRounds view patience)).waitIdle fd handle k).1 = 0 := by
  have run := inOrder.patient_waitIdle fd handle k (Nat.le_refl _)
  obtain ⟨k₁, same⟩ := CsDrm.InOrder.waitIdleLoop_answer run
  have answer := grants.waitIdle fd handle k₁
  rw [same] at answer
  cases answer with
  | inl zero => exact zero
  | inr busy => exact absurd busy (inOrder.patient.2 fd handle k)

/-! ## A driver that is never in a hurry -/

/-- A driver whose hardware works only while somebody waits: each wait that is
not over lets it finish one submission and times out. -/
def lazyDrm (exec : Job → σ → σ) : CsDrm (Rings Job σ) where
  cs fd cs k := (0, { k with pending := k.pending ++ [⟨fd, cs⟩] })
  waitIdle fd handle k :=
    if Rings.ahead (fun job => job.Lists fd handle) k.pending = 0 then (0, k)
    else
      match k.pending with
      | [] => (0, k)
      | job :: rest => (eBusy, { pending := rest, state := exec job k.state })

theorem lazyDrm_grants (exec : Job → σ → σ) : (lazyDrm exec).Grants where
  cs fd cs k := rfl
  waitIdle fd handle k := by
    simp only [lazyDrm]
    split
    · exact .inl rfl
    · split
      · exact .inl rfl
      · exact .inr rfl

theorem eBusy_ne_zero : eBusy ≠ 0 := by decide

theorem lazyDrm_inOrder (exec : Job → σ → σ) :
    (lazyDrm exec).InOrder (fun job s s' => s' = exec job s) id 0 where
  taken fd cs k _ := by
    refine ⟨[.accept ⟨fd, cs⟩], .cons .accept .nil, ?_⟩
    simp
  refused fd cs k refused := absurd rfl refused
  waited fd handle k := by
    simp only [lazyDrm]
    split
    · exact .refl fd k
    · split
      · exact .refl fd k
      · rename_i job rest pending
        obtain ⟨jobs, s⟩ := k
        obtain rfl : jobs = job :: rest := pending
        exact ⟨[.finish job], .cons (.oldest rfl) .nil, rfl⟩
  idle fd handle k answer := by
    simp only [lazyDrm] at answer ⊢
    split at answer
    · rename_i nothing
      rw [if_pos nothing]
      intro job member lists
      have other := Rings.ahead_eq_zero.mp nothing job member
      exact absurd lists (of_decide_eq_false other)
    · split at answer
      · rename_i some _ none
        rw [none] at some
        exact absurd rfl some
      · exact absurd answer eBusy_ne_zero
  progress fd handle k k' timesOut := by
    obtain ⟨answer, rfl⟩ := timesOut
    simp only [lazyDrm] at answer ⊢
    split at answer
    · exact absurd answer eBusy_ne_zero.symm
    · rename_i some
      split at answer
      · exact absurd answer eBusy_ne_zero.symm
      · rename_i job rest pending
        rw [if_neg some]
        show Rings.ahead _ rest < Rings.ahead _ k.pending
        rw [pending] at some ⊢
        rw [Rings.ahead_cons some]
        exact Nat.lt_succ_self _

end RadeonsiCompute
