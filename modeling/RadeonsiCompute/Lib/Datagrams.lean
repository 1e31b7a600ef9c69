import Mathlib.Data.Multiset.AddSub
import RadeonsiCompute.Lib.TSys

/-!
# Datagrams

A server answers the requests of many clients over a network that loses,
duplicates and reorders what is sent. A port may be used by one client after the
other, so an answer belongs to a port and not to a client. `Service.system` has
all interleavings of this, and `Service.correct` is the induction over them: a
server that deals rightly with each request alone deals rightly with all.
-/

namespace RadeonsiCompute.Lib

/-- What was sent, newest first, and the copies that are under way. -/
structure Datagrams (μ : Type) where
  sent : List μ
  inFlight : Multiset μ
  sourced : ∀ m ∈ inFlight, m ∈ sent

/-- What a network does by itself. -/
inductive Noise (μ : Type)
  | lose (m : μ)
  | duplicate (m : μ)

namespace Datagrams

variable {μ : Type}

def idle : Datagrams μ where
  sent := []
  inFlight := 0
  sourced m none := absurd none (Multiset.notMem_zero m)

def send (d : Datagrams μ) (m : μ) : Datagrams μ where
  sent := m :: d.sent
  inFlight := m ::ₘ d.inFlight
  sourced k member := by
    cases Multiset.mem_cons.mp member with
    | inl same => exact List.mem_cons.mpr (.inl same)
    | inr before => exact List.mem_cons_of_mem _ (d.sourced k before)

@[simp] theorem sent_idle : (idle : Datagrams μ).sent = [] := rfl

@[simp] theorem sent_send (d : Datagrams μ) (m : μ) : (d.send m).sent = m :: d.sent := rfl

@[simp] theorem inFlight_send (d : Datagrams μ) (m : μ) :
    (d.send m).inFlight = m ::ₘ d.inFlight := rfl

variable [DecidableEq μ]

/-- One copy has arrived, or is lost. -/
def drop (d : Datagrams μ) (m : μ) : Datagrams μ where
  sent := d.sent
  inFlight := d.inFlight.erase m
  sourced k member := d.sourced k (Multiset.mem_of_mem_erase member)

/-- Only what is under way is duplicated. -/
def duplicate (d : Datagrams μ) (m : μ) : Datagrams μ :=
  if member : m ∈ d.inFlight then {
    sent := d.sent
    inFlight := m ::ₘ d.inFlight
    sourced := by
      intro k copy
      cases Multiset.mem_cons.mp copy with
      | inl same => exact same ▸ d.sourced m member
      | inr before => exact d.sourced k before }
  else d

def disturb (d : Datagrams μ) : Noise μ → Datagrams μ
  | .lose m => d.drop m
  | .duplicate m => d.duplicate m

@[simp] theorem sent_drop (d : Datagrams μ) (m : μ) : (d.drop m).sent = d.sent := rfl

@[simp] theorem sent_disturb (d : Datagrams μ) (n : Noise μ) : (d.disturb n).sent = d.sent := by
  cases n with
  | lose m => rfl
  | duplicate m =>
      show (d.duplicate m).sent = d.sent
      unfold duplicate
      split
      · rfl
      · rfl

end Datagrams

/-- A server for requests `ι` in circumstances `ε`. A request that it does not
survive has no turn. -/
structure Service (ι ε τ α : Type) where
  handle : ι → ε → Option τ
  reply : τ → α

/-- The network, what the server has done for each request it took, and whether
it has ended. -/
structure Exchange (π ι τ α : Type) where
  requests : Datagrams (π × ι)
  answers : Datagrams (π × α)
  turns : List (π × τ)
  ended : Bool

inductive ExchangeEvent (π ι ε α : Type)
  | ask (port : π) (request : ι)
  | serve (port : π) (request : ι) (circumstances : ε)
  | receive (port : π) (answer : α)
  | onRequests (n : Noise (π × ι))
  | onAnswers (n : Noise (π × α))

namespace Service

variable {π ι ε τ α : Type} [DecidableEq π] [DecidableEq ι] [DecidableEq α]

/-- The state after an event, when the event is possible. -/
def next (server : Service ι ε τ α) (s : Exchange π ι τ α) :
    ExchangeEvent π ι ε α → Option (Exchange π ι τ α)
  | .ask port request => some { s with requests := s.requests.send (port, request) }
  | .serve port request circumstances =>
      if (port, request) ∈ s.requests.inFlight ∧ s.ended = false then
        match server.handle request circumstances with
        | some turn => some { s with
            requests := s.requests.drop (port, request)
            answers := s.answers.send (port, server.reply turn)
            turns := (port, turn) :: s.turns }
        | none => some { s with requests := s.requests.drop (port, request), ended := true }
      else none
  | .receive port answer =>
      if (port, answer) ∈ s.answers.inFlight then
        some { s with answers := s.answers.drop (port, answer) }
      else none
  | .onRequests n => some { s with requests := s.requests.disturb n }
  | .onAnswers n => some { s with answers := s.answers.disturb n }

/-- All runs in which the clients ask only what they may. -/
def system (server : Service ι ε τ α) (May : ι → Prop) :
    TSys (Exchange π ι τ α) (ExchangeEvent π ι ε α) where
  init s := s = ⟨.idle, .idle, [], false⟩
  step s e s' := (∀ port request, e = .ask port request → May request) ∧ server.next s e = some s'

/-- What holds in every state: the server is up, each turn is right for a request
from its port and has been answered there, and no answer is sent without one. -/
structure Right (server : Service ι ε τ α) (May : ι → Prop) (R : ι → τ → Prop)
    (s : Exchange π ι τ α) : Prop where
  up : s.ended = false
  allowed : ∀ m ∈ s.requests.sent, May m.2
  turned : ∀ t ∈ s.turns, ∃ m ∈ s.requests.sent, m.1 = t.1 ∧ R m.2 t.2
  answered : ∀ t ∈ s.turns, (t.1, server.reply t.2) ∈ s.answers.sent
  honest : ∀ a ∈ s.answers.sent, ∃ t ∈ s.turns, t.1 = a.1 ∧ server.reply t.2 = a.2

section

variable {server : Service ι ε τ α} {May : ι → Prop} {R : ι → τ → Prop}

theorem right_step (handles : ∀ i, May i → ∀ c, ∃ t, server.handle i c = some t ∧ R i t)
    {s s' : Exchange π ι τ α} {e : ExchangeEvent π ι ε α} (right : Right server May R s)
    (step : (server.system May).step s e s') : Right server May R s' := by
  obtain ⟨may, run⟩ := step
  cases e with
  | ask port request =>
      obtain rfl := Option.some.inj run
      refine ⟨right.up, ?_, fun t member => ?_, right.answered, right.honest⟩
      · simp only [Datagrams.sent_send, List.forall_mem_cons]
        exact ⟨may port request rfl, right.allowed⟩
      · obtain ⟨m, sent, same⟩ := right.turned t member
        exact ⟨m, List.mem_cons_of_mem _ sent, same⟩
  | serve port request circumstances =>
      rw [next] at run
      split at run
      · next arrived =>
          have sent := s.requests.sourced _ arrived.1
          obtain ⟨turn, handled, meets⟩ := handles request (right.allowed _ sent) circumstances
          simp only [handled] at run
          obtain rfl := Option.some.inj run
          refine ⟨right.up, right.allowed, ?_, ?_, ?_⟩
          · simp only [List.forall_mem_cons]
            exact ⟨⟨_, sent, rfl, meets⟩, right.turned⟩
          · simp only [Datagrams.sent_send, List.forall_mem_cons]
            exact ⟨List.mem_cons_self,
              fun t before => List.mem_cons_of_mem _ (right.answered t before)⟩
          · simp only [Datagrams.sent_send, List.forall_mem_cons]
            refine ⟨⟨_, List.mem_cons_self, rfl, rfl⟩, fun a member => ?_⟩
            obtain ⟨t, before, same⟩ := right.honest a member
            exact ⟨t, List.mem_cons_of_mem _ before, same⟩
      · cases run
  | receive port answer =>
      rw [next] at run
      split at run
      · obtain rfl := Option.some.inj run
        exact ⟨right.up, right.allowed, right.turned, right.answered, right.honest⟩
      · cases run
  | onRequests n =>
      obtain rfl := Option.some.inj run
      exact ⟨right.up, by simpa using right.allowed, by simpa using right.turned, right.answered,
        right.honest⟩
  | onAnswers n =>
      obtain rfl := Option.some.inj run
      exact ⟨right.up, right.allowed, right.turned, by simpa using right.answered,
        by simpa using right.honest⟩

/-- A server that survives every request the clients may send, and does what is
right for it, is right in every state. -/
theorem correct (handles : ∀ i, May i → ∀ c, ∃ t, server.handle i c = some t ∧ R i t)
    {s : Exchange π ι τ α} (reach : (server.system May).Reachable s) :
    Right server May R s := by
  have kept : (server.system (π := π) May).Inductive (Right server May R) := {
    init := by
      rintro s rfl
      exact ⟨rfl, by simp, by simp, by simp, by simp⟩
    step := fun s e s' right step => right_step handles right step }
  exact kept.invariant reach

end

end Service

end RadeonsiCompute.Lib
