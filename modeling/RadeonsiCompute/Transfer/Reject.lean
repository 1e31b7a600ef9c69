import RadeonsiCompute.Transfer.Exact

/-!
# When an out-of-range transfer is rejected

A transfer that reaches past the buffer should fail before it copies anything.
The one check is made for each fragment, after the earlier ones were copied,
and adds the offset to the fragment's size instead of taking it away; the
closing assertion assigns. `rejected_iff` says exactly which out-of-range
requests fail with the memory untouched: those the opening assertion or the
check of the first fragment stops.
-/

namespace RadeonsiCompute

open Lib

/-- The call reports that it failed. -/
def Outcome.Failure : Outcome → Prop
  | .ret r => r ≠ 0
  | .abort _ => True
  | .fault _ => False

/-- Both transfers fail and leave the buffer, or the caller's block, as it was. -/
structure Rejected (env : MmapEnv) (h : Heap) (bo : BufPtr) (total gpuOffset size : Nat) :
    Prop where
  write : ∀ m : CopyMem, m.hostSize = size → ∃ ending m',
    computeCopyToGpu env h bo gpuOffset size m = (ending, m') ∧ ending.Failure ∧
      ∀ o < total, h.flatByte bo m' o = h.flatByte bo m o
  read : ∀ m : CopyMem, m.hostSize = size → ∃ ending m',
    computeCopyFromGpu env h bo gpuOffset size m = (ending, m') ∧ ending.Failure ∧
      ∀ i < size, m'.host i = m.host i

section

variable {env : MmapEnv} {h : Heap} {bo : BufPtr} {total gpuOffset size : Nat}

/-- Zeros in every object and ones in the caller's block, to tell what is copied. -/
def CopyMem.onesOverZeros (size : Nat) : CopyMem where
  vram _ _ := 0
  host _ := 1
  hostSize := size

/-- A plan without a piece, given up at once, fails and copies nothing. -/
theorem runPlan_nothing (memcpy : Memcpy) (fragment : Nat → GpuBuffer) (size : Nat) (m : CopyMem) :
    runPlan memcpy fragment size ([], false) m = (.ret (-1), m) := rfl

/-- When the cursor never moves, every piece is empty and the loop runs to its end. -/
theorem planLoop_stuck {start : Nat} (same : localSize size start = start % fragmentSize)
    (wanted : localSize size start ≠ 0) (word : start < 2 ^ 64) (count : Nat) :
    ∀ i pos, (planLoop total size count i start pos).2 = true ∧
      ∀ c ∈ (planLoop total size count i start pos).1, c.len = 0 := by
  have unit := fragmentSize_lt
  have offset := Nat.mod_lt start fragmentSize_pos
  have len : sub64 (localSize size start) (start % fragmentSize) = 0 := by
    rw [same, sub64_of_le (by omega) (Nat.le_refl _), Nat.sub_self]
  induction count with
  | zero => intro i pos; exact ⟨rfl, by simp [planLoop]⟩
  | succ count ih =>
      intro i pos
      rw [planLoop_step wanted len (Nat.zero_le _), add64_of_lt (by omega), Nat.add_zero]
      obtain ⟨ending, empty⟩ := ih (i + 1) (pos + 0)
      refine ⟨ending, fun c member => ?_⟩
      rcases List.mem_cons.mp member with rfl | later
      · rfl
      · exact empty c later

/-- Empty pieces are copied without a fault. -/
theorem runChunks_empty {fragment : Nat → GpuBuffer} (cs : List Chunk) :
    ∀ m : CopyMem, (∀ c ∈ cs, c.len = 0) → (runChunks memcpyToGpu fragment cs m).1 = none := by
  induction cs with
  | nil => intro m _; rfl
  | cons c cs ih =>
      intro m empty
      have here := empty c List.mem_cons_self
      simp only [runChunks, memcpyToGpu, if_pos (Or.inl here)]
      exact ih _ fun c' later => empty c' (List.mem_cons_of_mem _ later)

/-- A plan whose pieces are copied and which comes to the end succeeds. -/
theorem runPlan_finished {memcpy : Memcpy} {fragment : Nat → GpuBuffer}
    {plan : List Chunk × Bool} {m : CopyMem}
    (copied : (runChunks memcpy fragment plan.1 m).1 = none) (planned : plan.2 = true)
    (some : size ≠ 0) :
    runPlan memcpy fragment size plan m = (.ret 0, (runChunks memcpy fragment plan.1 m).2) := by
  cases run : runChunks memcpy fragment plan.1 m with
  | mk stopped m₁ =>
      obtain rfl : stopped = none := by simpa [run] using copied
      simp only [runPlan, run, planned, if_true, copyDone, if_pos some]

/-- The out-of-range requests that are stopped in time: with the fragment at
the offset holding `s` bytes and `r` the offset in it, those whose fragment
does not exist, those that leave fewer than `r` bytes by the loop's reckoning,
and those that leave more than `s + 2 * r` in a short last fragment. -/
def StoppedFirst (total gpuOffset size : Nat) : Prop :=
  fragmentCount total * fragmentSize ≤ gpuOffset ∨
  gpuOffset < size ∧ size - gpuOffset < gpuOffset % fragmentSize ∨
  fragmentBytes total (gpuOffset / fragmentSize) + 2 * (gpuOffset % fragmentSize) < fragmentSize ∧
    (size < gpuOffset ∨ gpuOffset < size ∧
      fragmentBytes total (gpuOffset / fragmentSize) + 2 * (gpuOffset % fragmentSize) <
        size - gpuOffset)

/-- The offsets inside some fragment. -/
theorem gpuOffset_lt (request : RequestOk total)
    (inside : gpuOffset / fragmentSize < fragmentCount total) :
    gpuOffset < fragmentCount total * fragmentSize ∧ gpuOffset < 2 ^ 58 := by
  have many := request.2
  rw [indexRange_eq] at many
  have before := (Nat.div_lt_iff_lt_mul fragmentSize_pos).mp inside
  refine ⟨before, ?_⟩
  rw [fragmentSize_eq] at before
  omega

/-- What the loop wants first, and what the check of the first fragment makes of it. -/
theorem firstChunk (request : RequestOk total) (word : size < 2 ^ 64)
    (inside : gpuOffset / fragmentSize < fragmentCount total) (different : size ≠ gpuOffset) :
    localSize size gpuOffset ≠ 0 ∧
      (StoppedFirst total gpuOffset size ↔
        add64 (fragmentBytes total (gpuOffset / fragmentSize)) (gpuOffset % fragmentSize) <
          sub64 (localSize size gpuOffset) (gpuOffset % fragmentSize)) ∧
      (¬ StoppedFirst total gpuOffset size → gpuOffset % fragmentSize ≤ localSize size gpuOffset) := by
  obtain ⟨before, limit⟩ := gpuOffset_lt request inside
  have full := @fragmentBytes_le total (gpuOffset / fragmentSize)
  have unit := fragmentSize_lt
  have positive := fragmentSize_pos
  have offset := Nat.mod_lt gpuOffset fragmentSize_pos
  rw [add64_of_lt (show fragmentBytes total (gpuOffset / fragmentSize) + gpuOffset % fragmentSize <
    2 ^ 64 by omega)]
  unfold StoppedFirst
  generalize fragmentBytes total (gpuOffset / fragmentSize) = s at *
  generalize gpuOffset % fragmentSize = r at *
  rcases Nat.lt_or_gt_of_ne different with short | long
  · -- the bytes left wrap to a huge number
    have wanted : localSize size gpuOffset = fragmentSize := by
      rw [localSize, sub64_of_lt (by omega) short]
      exact Nat.min_eq_right (by omega)
    rw [wanted, sub64_of_le (by omega) (by omega)]
    omega
  · have wanted : localSize size gpuOffset = min (size - gpuOffset) fragmentSize := by
      rw [localSize, sub64_of_le (by omega) (by omega)]
    rw [wanted]
    by_cases wraps : min (size - gpuOffset) fragmentSize < r
    · rw [sub64_of_lt (by omega) wraps]
      omega
    · rw [sub64_of_le (by omega) (by omega)]
      omega

/-- A plan whose first piece is not empty ends in a fault, or has written a one
where there was a zero. -/
theorem runPlan_first (buffer : Fragmented h bo total) {c : Chunk} {cs : List Chunk}
    {ending : Bool} (some : 0 < c.len) (exists_ : c.fragment < fragmentCount total) :
    (∃ f, (runPlan memcpyToGpu (fun j => h.buffer (bo.add j)) size (c :: cs, ending)
      (CopyMem.onesOverZeros size)).1 = .fault f) ∨
    c.offset + c.len ≤ fragmentBytes total c.fragment ∧
      (runPlan memcpyToGpu (fun j => h.buffer (bo.add j)) size (c :: cs, ending)
        (CopyMem.onesOverZeros size)).2.vram
          (h.buffer (bo.add c.fragment)).handle c.offset = 1 := by
  by_cases room : c.offset + c.len ≤ fragmentBytes total c.fragment ∧ c.pos + c.len ≤ size
  · refine .inr ⟨room.1, ?_⟩
    have fits : c.len = 0 ∨ c.offset + c.len ≤ (h.buffer (bo.add c.fragment)).size ∧
        c.pos + c.len ≤ (CopyMem.onesOverZeros size).hostSize := by
      rw [buffer.size _ exists_]
      exact .inr room
    rw [runPlan_mem]
    simp only [runChunks, memcpyToGpu, if_pos fits]
    have written : Function.update (fun _ _ => (0 : Byte))
        (h.buffer (bo.add c.fragment)).handle
        ((Move.mk c.offset c.pos c.len).into (fun _ => 0) fun _ => 1)
        (h.buffer (bo.add c.fragment)).handle c.offset = 1 := by
      rw [Function.update_self, Move.into_of_mem _ _ (Nat.le_refl _)]
      show c.offset < c.offset + c.len
      omega
    simp only [CopyMem.onesOverZeros]
    generalize Function.update (fun _ _ => (0 : Byte)) (h.buffer (bo.add c.fragment)).handle
      ((Move.mk c.offset c.pos c.len).into (fun _ => 0) fun _ => 1) = vram at written ⊢
    exact @runChunks_byte (fun j => h.buffer (bo.add j)) (fun b => b = 1) cs
      { vram, host := fun _ => 1, hostSize := size } (fun _ _ _ _ => rfl) _ _ written
  · refine .inl ⟨.outOfBounds, ?_⟩
    have fits : ¬ (c.len = 0 ∨ c.offset + c.len ≤ (h.buffer (bo.add c.fragment)).size ∧
        c.pos + c.len ≤ (CopyMem.onesOverZeros size).hostSize) := by
      rw [buffer.size _ exists_]
      rintro (zero | inside)
      · omega
      · exact room inside
    simp only [runPlan, runChunks, memcpyToGpu, if_neg fits]

section

variable (env_ok : env.Succeeds) (buffer : Fragmented h bo total)
include env_ok buffer

/-- An offset past the last fragment fails the opening assertion. -/
theorem Rejected.past (outside : ¬ gpuOffset / fragmentSize < fragmentCount total) :
    Rejected env h bo total gpuOffset size := by
  refine ⟨fun m _ => ?_, fun m _ => ?_⟩
  · refine ⟨.abort "start_fragment < bo->fragment_number", m, ?_, trivial, fun _ _ => rfl⟩
    rw [computeCopyToGpu, copyFragments_eq_plan env_ok buffer, if_neg outside]
  · refine ⟨.abort "start_fragment < bo->fragment_number", m, ?_, trivial, fun _ _ => rfl⟩
    rw [computeCopyFromGpu, copyFragments_eq_plan env_ok buffer, if_neg outside]

variable (inside : gpuOffset / fragmentSize < fragmentCount total)
include inside

/-- The check of the first fragment returns -1 before anything is copied. -/
theorem Rejected.large (wanted : localSize size gpuOffset ≠ 0)
    (large : add64 (fragmentBytes total (gpuOffset / fragmentSize)) (gpuOffset % fragmentSize) <
      sub64 (localSize size gpuOffset) (gpuOffset % fragmentSize)) :
    Rejected env h bo total gpuOffset size := by
  obtain ⟨count, some⟩ : ∃ count, fragmentCount total - gpuOffset / fragmentSize = count + 1 :=
    ⟨fragmentCount total - gpuOffset / fragmentSize - 1, by omega⟩
  have nothing : planLoop total size (fragmentCount total - gpuOffset / fragmentSize)
      (gpuOffset / fragmentSize) gpuOffset 0 = ([], false) := by
    rw [some, planLoop_large wanted rfl large]
  refine ⟨fun m _ => ?_, fun m _ => ?_⟩
  · refine ⟨.ret (-1), m, ?_, show (-1 : Int) ≠ 0 by decide, fun _ _ => rfl⟩
    rw [computeCopyToGpu, copyFragments_eq_plan env_ok buffer, if_pos inside, nothing,
      runPlan_nothing]
  · refine ⟨.ret (-1), m, ?_, show (-1 : Int) ≠ 0 by decide, fun _ _ => rfl⟩
    rw [computeCopyFromGpu, copyFragments_eq_plan env_ok buffer, if_pos inside, nothing,
      runPlan_nothing]

/-- A rejected transfer of ones has failed and left zeros in the buffer. -/
theorem Rejected.zeros (rejected : Rejected env h bo total gpuOffset size) :
    ∃ ending m', runPlan memcpyToGpu (fun j => h.buffer (bo.add j)) size
        (planLoop total size (fragmentCount total - gpuOffset / fragmentSize)
          (gpuOffset / fragmentSize) gpuOffset 0) (.onesOverZeros size) = (ending, m') ∧
      ending.Failure ∧ ∀ o < total, h.flatByte bo m' o = 0 := by
  obtain ⟨ending, m', run, failure, bytes⟩ := rejected.write (.onesOverZeros size) rfl
  rw [computeCopyToGpu, copyFragments_eq_plan env_ok buffer, if_pos inside] at run
  exact ⟨ending, m', run, failure, bytes⟩

/-- A plan that is carried out to its end returns success. -/
theorem not_rejected_finished (some : size ≠ 0)
    (planned : (planLoop total size (fragmentCount total - gpuOffset / fragmentSize)
      (gpuOffset / fragmentSize) gpuOffset 0).2 = true)
    (empty : ∀ c ∈ (planLoop total size (fragmentCount total - gpuOffset / fragmentSize)
      (gpuOffset / fragmentSize) gpuOffset 0).1, c.len = 0) :
    ¬ Rejected env h bo total gpuOffset size := by
  intro rejected
  obtain ⟨ending, m', run, failure, -⟩ := rejected.zeros env_ok buffer inside
  have copied := @runChunks_empty (fun j => h.buffer (bo.add j)) _ (.onesOverZeros size) empty
  rw [runPlan_finished copied planned some] at run
  obtain ⟨rfl, -⟩ := Prod.mk.inj run
  exact failure rfl

/-- A first piece that is not empty faults or leaves a one in the buffer. -/
theorem not_rejected_copied (wanted : localSize size gpuOffset ≠ 0)
    (reached : gpuOffset % fragmentSize < localSize size gpuOffset)
    (room : sub64 (localSize size gpuOffset) (gpuOffset % fragmentSize) ≤
      add64 (fragmentBytes total (gpuOffset / fragmentSize)) (gpuOffset % fragmentSize)) :
    ¬ Rejected env h bo total gpuOffset size := by
  intro rejected
  obtain ⟨ending, m', run, failure, zeros⟩ := rejected.zeros env_ok buffer inside
  have unit := fragmentSize_lt
  have capped : localSize size gpuOffset ≤ fragmentSize := Nat.min_le_right _ _
  have len : sub64 (localSize size gpuOffset) (gpuOffset % fragmentSize) =
      localSize size gpuOffset - gpuOffset % fragmentSize :=
    sub64_of_le (by omega) (by omega)
  rw [len] at room
  obtain ⟨count, some⟩ : ∃ count, fragmentCount total - gpuOffset / fragmentSize = count + 1 :=
    ⟨fragmentCount total - gpuOffset / fragmentSize - 1, by omega⟩
  rw [some, planLoop_step wanted len room] at run
  rcases @runPlan_first h bo total size buffer ⟨_, _, 0, _⟩ _ _
    (show 0 < localSize size gpuOffset - gpuOffset % fragmentSize by omega) inside with
    ⟨f, faulted⟩ | ⟨ends, copied⟩
  · rw [run] at faulted
    dsimp only at faulted
    rw [faulted] at failure
    exact failure
  · rw [run] at copied
    dsimp only at ends copied
    have zero := zeros gpuOffset (lt_of_mod_lt_fragmentBytes (by omega))
    rw [Heap.flatByte, copied] at zero
    exact absurd zero (by decide)

end

/-- **Exactly the requests stopped first are rejected.** -/
theorem rejected_iff (env_ok : env.Succeeds) (buffer : Fragmented h bo total)
    (offsetWord : gpuOffset < 2 ^ 64) (sizeWord : size < 2 ^ 64)
    (outside : total < gpuOffset + size) :
    Rejected env h bo total gpuOffset size ↔ StoppedFirst total gpuOffset size := by
  have first := buffer.request.1
  by_cases inside : gpuOffset / fragmentSize < fragmentCount total
  swap
  · have past : fragmentCount total * fragmentSize ≤ gpuOffset := by
      rw [Nat.div_lt_iff_lt_mul fragmentSize_pos] at inside
      omega
    exact iff_of_true (.past env_ok buffer inside) (.inl past)
  obtain ⟨before, limit⟩ := gpuOffset_lt buffer.request inside
  by_cases same : size = gpuOffset
  · -- nothing is left, so the call returns at once, with success
    have nothing : localSize size gpuOffset = 0 := by
      rw [same, localSize, sub64_of_le offsetWord (Nat.le_refl _), Nat.sub_self]
      exact Nat.zero_min _
    have finished : ∀ count i, planLoop total size count i gpuOffset 0 = ([], true) := by
      intro count i
      cases count with
      | zero => rfl
      | succ count => exact planLoop_finished nothing
    refine iff_of_false (not_rejected_finished env_ok buffer inside (by omega) ?_ ?_) ?_
    · rw [finished]
    · rw [finished]
      simp
    · unfold StoppedFirst
      omega
  obtain ⟨wanted, stopped, noWrap⟩ := firstChunk buffer.request sizeWord inside same
  by_cases large : StoppedFirst total gpuOffset size
  · exact iff_of_true (.large env_ok buffer inside wanted (stopped.mp large)) large
  refine iff_of_false ?_ large
  by_cases zero : localSize size gpuOffset = gpuOffset % fragmentSize
  · -- every piece is empty, so the call returns success
    have unit := fragmentSize_lt
    have offset := Nat.mod_lt gpuOffset fragmentSize_pos
    have nonzero : size ≠ 0 := by
      intro empty
      rw [empty, localSize, sub64_of_lt offsetWord (by omega)] at zero
      omega
    obtain ⟨planned, empty⟩ := @planLoop_stuck total size gpuOffset zero wanted offsetWord
      (fragmentCount total - gpuOffset / fragmentSize) (gpuOffset / fragmentSize) 0
    exact not_rejected_finished env_ok buffer inside nonzero planned empty
  · have within := noWrap large
    exact not_rejected_copied env_ok buffer inside wanted (by omega)
      (Nat.le_of_not_lt (mt stopped.mpr large))

end

/-- A size of `2^64 - 1` at offset 10 of a buffer of 100 bytes is refused. -/
theorem rejected_hugeSize :
    Rejected .granting (.oneBuffer 100) ⟨0, 0⟩ 100 10 18446744073709551615 :=
  (rejected_iff ⟨fun _ _ _ _ => rfl, fun _ _ => rfl⟩
    (.oneBuffer (requestOk_of_le (by decide) (by decide))) (by decide) (by decide)
    (by decide)).mpr (.inr (.inr (by decide +kernel)))

/-- 100 bytes at offset 10 of a buffer of 100: 80 bytes are copied and the call returns 0. -/
theorem not_rejected_overrun : ¬ Rejected .granting (.oneBuffer 100) ⟨0, 0⟩ 100 10 100 := by
  intro rejected
  obtain ⟨ending, m', run, failure, -⟩ := rejected.write (CopyMem.onesOverZeros 100) rfl
  have returned : (computeCopyToGpu .granting (.oneBuffer 100) ⟨0, 0⟩ 10 100
      (CopyMem.onesOverZeros 100)).1 = .ret 0 := by decide +kernel
  rw [run] at returned
  dsimp only at returned
  subst returned
  exact failure rfl

end RadeonsiCompute
