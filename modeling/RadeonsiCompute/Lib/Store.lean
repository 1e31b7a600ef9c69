import Mathlib.Data.Finset.Insert
import Mathlib.Data.Finset.Card
import Mathlib.Data.Finset.Lattice.Fold
import Mathlib.Logic.Function.Basic
import Mathlib.Order.Lattice.Nat

/-!
# Heap blocks of one type

A typed view of a C heap: a store maps addresses to the contents of the blocks
of one type and remembers which blocks are allocated. `free` keeps the
contents, and `malloc` hands a block out with whatever it last held, so an
uninitialised field reads as stale data. An access to a block that is not
allocated is a fault, never a default value.

Which free block `malloc` picks is an `Allocator`: a choice together with the
proof that it never picks an allocated block.
-/

namespace RadeonsiCompute.Lib

abbrev Addr := Nat

/-- The ways a C call ends other than by returning. -/
inductive Fault
  | nullDeref
  | outOfBounds
  | useAfterFree
  | invalidFree
  | assertion (text : String)
  | exception (what : String)
  | diverges
  deriving DecidableEq, Repr

@[simp] theorem ok_bind {ε α β : Type} (a : α) (f : α → Except ε β) :
    (Except.ok a >>= f) = f a := rfl

@[simp] theorem error_bind {ε α β : Type} (e : ε) (f : α → Except ε β) :
    ((Except.error e : Except ε α) >>= f) = .error e := rfl

/-- A call that returned went through each of its parts. -/
theorem bind_eq_ok {ε α β : Type} {x : Except ε α} {f : α → Except ε β} {b : β} :
    (x >>= f) = .ok b ↔ ∃ a, x = .ok a ∧ f a = .ok b := by
  cases x with
  | error e => simp
  | ok a => simp

theorem toOption_eq_some {ε α : Type} {x : Except ε α} {a : α} :
    x.toOption = some a ↔ x = .ok a := by
  cases x with
  | error e => simp [Except.toOption]
  | ok b => simp [Except.toOption]

/-- How a call failed, if it did. -/
def faultOf {ε α : Type} : Except ε α → Option ε
  | .error e => some e
  | .ok _ => none

theorem faultOf_eq_some {ε α : Type} {x : Except ε α} {e : ε} :
    faultOf x = some e ↔ x = .error e := by
  cases x with
  | error e' => simp [faultOf]
  | ok a => simp [faultOf]

/-- Two calls come to the same: to one failure, or to results that are related. -/
inductive Alike {ε α β : Type} (R : α → β → Prop) : Except ε α → Except ε β → Prop
  | ok {a b} : R a b → Alike R (.ok a) (.ok b)
  | error (e) : Alike R (.error e) (.error e)

namespace Alike

variable {ε α β γ : Type} {R : α → β → Prop}

theorem bind {x : Except ε α} {y : Except ε β} {f : α → Except ε α} {g : β → Except ε β}
    (first : Alike R x y) (more : ∀ {a b}, R a b → Alike R (f a) (g b)) :
    Alike R (x >>= f) (y >>= g) := by
  cases first with
  | ok related => exact more related
  | error e => exact .error e

/-- So do two loops whose rounds do. -/
theorem foldlM {f : α → γ → Except ε α} {g : β → γ → Except ε β}
    (round : ∀ c {a b}, R a b → Alike R (f a c) (g b c)) (cs : List γ) :
    ∀ {a b}, R a b → Alike R (cs.foldlM f a) (cs.foldlM g b) := by
  induction cs with
  | nil => intro a b related; exact .ok related
  | cons c cs ih =>
      intro a b related
      rw [List.foldlM_cons, List.foldlM_cons]
      exact (round c related).bind ih

end Alike

/-- A policy for the address of the next block, never an allocated one. -/
structure Allocator where
  choose : Finset Addr → Addr
  fresh : ∀ live, choose live ∉ live

/-- The policy that takes the first address above every allocated one. -/
def Allocator.above : Allocator where
  choose live := live.sup id + 1
  fresh live member := by
    have bound : id (live.sup id + 1) ≤ live.sup id := Finset.le_sup member
    exact Nat.not_succ_le_self _ bound

/-- Contents of all blocks of one type and the addresses of the allocated ones. -/
structure Store (α : Type) where
  cell : Addr → α
  live : Finset Addr

namespace Store

variable {α : Type}

def load (s : Store α) (a : Addr) : Except Fault α :=
  if a ∈ s.live then .ok (s.cell a) else .error .useAfterFree

def modify (s : Store α) (a : Addr) (f : α → α) : Except Fault (Store α) :=
  if a ∈ s.live then .ok { s with cell := Function.update s.cell a (f (s.cell a)) }
  else .error .useAfterFree

/-- A block with its stale contents. -/
def malloc (s : Store α) (m : Allocator) : Addr × Store α :=
  (m.choose s.live, { s with live := insert (m.choose s.live) s.live })

def free (s : Store α) (a : Addr) : Except Fault (Store α) :=
  if a ∈ s.live then .ok { s with live := s.live.erase a } else .error .invalidFree

theorem load_eq {s : Store α} {a : Addr} (h : a ∈ s.live) : s.load a = .ok (s.cell a) :=
  if_pos h

theorem modify_eq {s : Store α} {a : Addr} (h : a ∈ s.live) (f : α → α) :
    s.modify a f = .ok { s with cell := Function.update s.cell a (f (s.cell a)) } :=
  if_pos h

theorem free_eq {s : Store α} {a : Addr} (h : a ∈ s.live) :
    s.free a = .ok { s with live := s.live.erase a } :=
  if_pos h

/-- A list of distinct allocated blocks is no longer than the store. -/
theorem length_le_card {s : Store α} {as : List Addr} (nodup : as.Nodup)
    (live : ∀ a ∈ as, a ∈ s.live) : as.length ≤ s.live.card := by
  rw [← List.toFinset_card_of_nodup nodup]
  refine Finset.card_le_card fun a member => ?_
  exact live a (List.mem_toFinset.mp member)

end Store

end RadeonsiCompute.Lib
