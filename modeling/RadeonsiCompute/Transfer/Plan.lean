import RadeonsiCompute.Buffer.Fragments
import RadeonsiCompute.Transfer.Code

/-!
# What a transfer copies, before any byte is copied

Which pieces the copy loop hands to `memcpy`, and whether it gives up, depends
on the arguments and the fragment sizes alone. `planLoop` computes the pieces;
`copyFragments_eq_plan` says that with a driver that maps everything the code
copies exactly the planned pieces, in order, stopping at the first fault.
-/

namespace RadeonsiCompute

open Lib

/-- Every mapping is granted. -/
structure MmapEnv.Succeeds (env : MmapEnv) : Prop where
  gemMmap : ∀ fd handle offset size, env.gemMmap fd handle offset size = 0
  mmap : ∀ fd size, env.mmap fd size = true

/-- One `memcpy`: `len` bytes between a fragment and the caller's block. -/
structure Chunk where
  fragment : Nat
  offset : Nat
  pos : Nat
  len : Nat
  deriving DecidableEq, Repr

/-- The bytes still wanted, as the loop reckons, capped at a fragment. -/
def localSize (size startGpu : Nat) : Nat := min (sub64 size startGpu) fragmentSize

/-- The pieces the loop copies from fragment `i` on, and whether it gets to
the end of the request. -/
def planLoop (total size : Nat) : Nat → Nat → Nat → Nat → List Chunk × Bool
  | 0, _, _, _ => ([], true)
  | count + 1, i, startGpu, pos =>
      if localSize size startGpu = 0 then ([], true)
      else
        let offset := startGpu % fragmentSize
        let len := sub64 (localSize size startGpu) offset
        if len > add64 (fragmentBytes total i) offset then ([], false)
        else
          let (chunks, ending) := planLoop total size count (i + 1) (add64 startGpu len) (pos + len)
          ({ fragment := i, offset, pos, len } :: chunks, ending)

section Steps

variable {total size count i startGpu pos n : Nat}

/-- Nothing is left, as the loop reckons. -/
theorem planLoop_finished (nothing : localSize size startGpu = 0) :
    planLoop total size (count + 1) i startGpu pos = ([], true) := by
  rw [planLoop, if_pos nothing]

/-- The fragment is found too small. -/
theorem planLoop_large (wanted : localSize size startGpu ≠ 0)
    (len : sub64 (localSize size startGpu) (startGpu % fragmentSize) = n)
    (large : add64 (fragmentBytes total i) (startGpu % fragmentSize) < n) :
    planLoop total size (count + 1) i startGpu pos = ([], false) := by
  subst len
  rw [planLoop, if_neg wanted]
  dsimp only
  rw [if_pos large]

/-- A piece is copied. -/
theorem planLoop_step (wanted : localSize size startGpu ≠ 0)
    (len : sub64 (localSize size startGpu) (startGpu % fragmentSize) = n)
    (room : n ≤ add64 (fragmentBytes total i) (startGpu % fragmentSize)) :
    planLoop total size (count + 1) i startGpu pos =
      ({ fragment := i, offset := startGpu % fragmentSize, pos, len := n } ::
          (planLoop total size count (i + 1) (add64 startGpu n) (pos + n)).1,
        (planLoop total size count (i + 1) (add64 startGpu n) (pos + n)).2) := by
  subst len
  rw [planLoop, if_neg wanted]
  dsimp only
  rw [if_neg (Nat.not_lt.mpr room)]

end Steps

/-- Copy the pieces in order, up to the first fault. -/
def runChunks (memcpy : Memcpy) (fragment : Nat → GpuBuffer) :
    List Chunk → CopyMem → Option Fault × CopyMem
  | [], m => (none, m)
  | c :: cs, m =>
      match memcpy (fragment c.fragment) c.offset c.pos c.len m with
      | .error f => (some f, m)
      | .ok m => runChunks memcpy fragment cs m

/-- Copy as planned and report the end. -/
def runPlan (memcpy : Memcpy) (fragment : Nat → GpuBuffer) (size : Nat)
    (plan : List Chunk × Bool) (m : CopyMem) : Outcome × CopyMem :=
  match runChunks memcpy fragment plan.1 m with
  | (some f, m) => (.fault f, m)
  | (none, m) => if plan.2 then copyDone size m else (.ret (-1), m)

/-- Zero comes back only from a plan carried out to the end. -/
theorem runPlan_ret_zero {memcpy : Memcpy} {fragment : Nat → GpuBuffer} {size : Nat}
    {plan : List Chunk × Bool} {m m' : CopyMem}
    (returned : runPlan memcpy fragment size plan m = (.ret 0, m')) :
    runChunks memcpy fragment plan.1 m = (none, m') ∧ plan.2 = true := by
  unfold runPlan at returned
  cases run : runChunks memcpy fragment plan.1 m with
  | mk stopped m₁ =>
      cases stopped with
      | some f => simp [run] at returned
      | none =>
          simp only [run] at returned
          by_cases ending : plan.2 = true
          · rw [if_pos ending, copyDone] at returned
            split at returned
            · obtain rfl : m₁ = m' := by simpa using returned
              exact ⟨rfl, ending⟩
            · simp at returned
          · simp [if_neg ending] at returned

/-- Reporting the end touches no memory. -/
theorem runPlan_mem {memcpy : Memcpy} {fragment : Nat → GpuBuffer} {size : Nat}
    {plan : List Chunk × Bool} {m : CopyMem} :
    (runPlan memcpy fragment size plan m).2 = (runChunks memcpy fragment plan.1 m).2 := by
  unfold runPlan copyDone
  split
  · rename_i run
    rw [run]
  · rename_i run
    rw [run]
    split
    · split <;> rfl
    · rfl

section

variable {memcpy : Memcpy} {env : MmapEnv} {h : Heap} {bo : BufPtr} {total : Nat}

/-- With every mapping granted, a fragment is copied unless the request is
found too large for it. -/
theorem copyUnfragmented_eq (env_ok : env.Succeeds) (buffer : Fragmented h bo total) {i : Nat}
    (hi : i < fragmentCount total) (offset pos len : Nat) (m : CopyMem) :
    copyUnfragmented memcpy env h (bo.add i) offset pos len m =
      if len > add64 (fragmentBytes total i) offset then (.ret (-1), m)
      else match memcpy (h.buffer (bo.add i)) offset pos len m with
        | .error f => (.fault f, m)
        | .ok m => (.ret 0, m) := by
  have nonzero : ¬ (0 : Int) ≠ 0 := fun different => different rfl
  cases copied : memcpy (h.buffer (bo.add i)) offset pos len m with
  | error f =>
      simp only [copyUnfragmented, Heap.loadBuffer_eq (buffer.valid i hi),
        Store.load_eq (buffer.ctxLive i hi), buffer.size i hi, env_ok.gemMmap, env_ok.mmap,
        if_neg nonzero, Bool.true_eq_false, if_false, copied]
  | ok m' =>
      simp only [copyUnfragmented, Heap.loadBuffer_eq (buffer.valid i hi),
        Store.load_eq (buffer.ctxLive i hi), buffer.size i hi, env_ok.gemMmap, env_ok.mmap,
        if_neg nonzero, Bool.true_eq_false, if_false, copied]

/-- The copy loop follows its plan. -/
theorem copyLoop_eq_plan (env_ok : env.Succeeds) (buffer : Fragmented h bo total) (size : Nat)
    (count : Nat) : ∀ (i startGpu pos : Nat) (m : CopyMem), i + count ≤ fragmentCount total →
      copyLoop memcpy env h bo size count i startGpu pos m =
        runPlan memcpy (fun j => h.buffer (bo.add j)) size
          (planLoop total size count i startGpu pos) m := by
  induction count with
  | zero => intro i startGpu pos m _; rfl
  | succ count ih =>
      intro i startGpu pos m bound
      have capped : (if sub64 size startGpu < fragmentSize then sub64 size startGpu
          else fragmentSize) = localSize size startGpu := by
        unfold localSize
        split <;> omega
      simp only [copyLoop, planLoop, capped]
      by_cases finished : localSize size startGpu = 0
      · rw [if_pos finished, if_pos finished]
        rfl
      · rw [if_neg finished, if_neg finished,
          copyUnfragmented_eq env_ok buffer (show i < fragmentCount total by omega)]
        generalize sub64 (localSize size startGpu) (startGpu % fragmentSize) = len
        by_cases large : len > add64 (fragmentBytes total i) (startGpu % fragmentSize)
        · rw [if_pos large, if_pos large]
          rfl
        · rw [if_neg large, if_neg large]
          cases copied : memcpy (h.buffer (bo.add i)) (startGpu % fragmentSize) pos len m with
          | error f => simp only [runPlan, runChunks, copied]
          | ok m' =>
              simp only [ne_eq, not_true_eq_false, if_false]
              rw [ih (i + 1) _ _ m' (by omega)]
              simp only [runPlan, runChunks, copied]

/-- **The plan decides.** A transfer whose mappings are granted fails its
opening assertion or copies what is planned. -/
theorem copyFragments_eq_plan (env_ok : env.Succeeds) (buffer : Fragmented h bo total)
    (gpuOffset size : Nat) (m : CopyMem) :
    copyFragments memcpy env h bo gpuOffset size m =
      if gpuOffset / fragmentSize < fragmentCount total then
        runPlan memcpy (fun j => h.buffer (bo.add j)) size
          (planLoop total size (fragmentCount total - gpuOffset / fragmentSize)
            (gpuOffset / fragmentSize) gpuOffset 0) m
      else (.abort "start_fragment < bo->fragment_number", m) := by
  have first : h.ValidBuffer bo := by
    simpa using buffer.valid 0 (fragmentCount_pos buffer.request.1)
  simp only [copyFragments, Heap.loadBuffer_eq first, buffer.number]
  by_cases inside : gpuOffset / fragmentSize < fragmentCount total
  · rw [if_pos inside, if_pos inside, copyLoop_eq_plan env_ok buffer size _ _ _ _ _ (by omega)]
  · rw [if_neg inside, if_neg inside]

end

end RadeonsiCompute
