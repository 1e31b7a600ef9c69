import Mathlib.Data.List.Nodup
import Mathlib.Logic.Function.Basic
import Mathlib.Tactic.Common

/-!
# Writes to a register file

A register file is a function and a write is an address with a value. After a
list of writes that names no register twice, each register named holds what was
written to it and every other register what it held.
-/

namespace RadeonsiCompute.Lib

variable {α β : Type} [DecidableEq α]

/-- The register file after the writes, made in order. -/
def applyWrites (ws : List (α × β)) (f : α → β) : α → β :=
  ws.foldl (fun f w => Function.update f w.1 w.2) f

theorem applyWrites_append (ws ws' : List (α × β)) (f : α → β) :
    applyWrites (ws ++ ws') f = applyWrites ws' (applyWrites ws f) := List.foldl_append

theorem applyWrites_of_notMem {ws : List (α × β)} {a : α} :
    ∀ {f : α → β}, a ∉ ws.map Prod.fst → applyWrites ws f a = f a := by
  induction ws with
  | nil => intro f _; rfl
  | cons w ws ih =>
      intro f absent
      rw [List.map_cons, List.mem_cons, not_or] at absent
      rw [applyWrites, List.foldl_cons]
      exact (ih absent.2).trans (Function.update_of_ne absent.1 _ _)

theorem applyWrites_of_mem {ws : List (α × β)} {a : α} {b : β} :
    ∀ {f : α → β}, (ws.map Prod.fst).Nodup → (a, b) ∈ ws → applyWrites ws f a = b := by
  induction ws with
  | nil => intro f _ member; exact absurd member (by simp)
  | cons w ws ih =>
      intro f distinct member
      rw [List.map_cons, List.nodup_cons] at distinct
      rw [applyWrites, List.foldl_cons]
      cases member with
      | head => exact (applyWrites_of_notMem distinct.1).trans (Function.update_self _ _ _)
      | tail _ later => exact ih distinct.2 later

end RadeonsiCompute.Lib
