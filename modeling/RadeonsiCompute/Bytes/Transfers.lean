import RadeonsiCompute.Bytes.Machine

/-!
# Transfers seen through the arrays

A transfer that returned 0 was granted every mapping it asked for, so it did
what it does on a driver that grants them all; a read that was refused one did
the beginning of it. A write changes the objects of its own buffer and no
others.
-/

namespace RadeonsiCompute

open Lib

variable {memcpy : Memcpy} {env : MmapEnv} {h : Heap} {bo : BufPtr} {gpuOffset size : Nat}

/-! ## What is granted, or not -/

theorem MmapEnv.granting_succeeds : MmapEnv.granting.Succeeds :=
  ⟨fun _ _ _ _ => rfl, fun _ _ => rfl⟩

/-- A fragment is mapped, or the call returns before it has copied anything. -/
theorem copyUnfragmented_granted {pos : Nat} {m : CopyMem} :
    copyUnfragmented memcpy env h bo gpuOffset pos size m =
        copyUnfragmented memcpy .granting h bo gpuOffset pos size m ∨
      ∃ r ≠ 0, copyUnfragmented memcpy env h bo gpuOffset pos size m = (.ret r, m) := by
  unfold copyUnfragmented
  cases loaded : h.loadBuffer bo with
  | error f => exact .inl rfl
  | ok b =>
      dsimp only
      by_cases large : size > add64 b.size gpuOffset
      · rw [if_pos large, if_pos large]
        exact .inl rfl
      · rw [if_neg large, if_neg large]
        cases context : h.contexts.load b.ctx with
        | error f => exact .inl rfl
        | ok c =>
            dsimp only
            split
            · exact .inr ⟨-2, by decide, rfl⟩
            · split
              · exact .inr ⟨-3, by decide, rfl⟩
              · exact .inl rfl

theorem copyLoop_granted (count : Nat) : ∀ (i startGpu pos : Nat) (m : CopyMem),
    copyLoop memcpy env h bo size count i startGpu pos m =
        copyLoop memcpy .granting h bo size count i startGpu pos m ∨
      ∃ r ≠ 0, (copyLoop memcpy env h bo size count i startGpu pos m).1 = .ret r := by
  induction count with
  | zero => intro i startGpu pos m; exact .inl rfl
  | succ count ih =>
      intro i startGpu pos m
      unfold copyLoop
      dsimp only
      generalize (if sub64 size startGpu < fragmentSize then sub64 size startGpu
        else fragmentSize) = left
      by_cases finished : left = 0
      · rw [if_pos finished, if_pos finished]
        exact .inl rfl
      · rw [if_neg finished, if_neg finished]
        rcases @copyUnfragmented_granted memcpy env h (bo.add i) (startGpu % fragmentSize)
          (sub64 left (startGpu % fragmentSize)) pos m with same | ⟨r, failed, refused⟩
        · rw [same]
          generalize copyUnfragmented memcpy .granting h (bo.add i) (startGpu % fragmentSize) pos
            (sub64 left (startGpu % fragmentSize)) m = reply
          obtain ⟨ending, m₁⟩ := reply
          cases ending with
          | ret r =>
              by_cases failed : r ≠ 0
              · exact .inl (by simp only [if_pos failed])
              · simp only [if_neg failed]
                exact ih _ _ _ _
          | abort text => exact .inl rfl
          | fault f => exact .inl rfl
        · rw [refused]
          simp only [if_pos failed]
          exact .inr ⟨r, failed, rfl⟩

/-- A transfer does what it does on a driver that grants everything, or says that it was
refused a mapping. -/
theorem copyFragments_granted {m : CopyMem} :
    copyFragments memcpy env h bo gpuOffset size m =
        copyFragments memcpy .granting h bo gpuOffset size m ∨
      ∃ r ≠ 0, (copyFragments memcpy env h bo gpuOffset size m).1 = .ret r := by
  unfold copyFragments
  cases loaded : h.loadBuffer bo with
  | error f => exact .inl rfl
  | ok b =>
      dsimp only
      split
      · exact copyLoop_granted _ _ _ _ _
      · exact .inl rfl

theorem copyFragments_granted_of_ret {m m' : CopyMem}
    (returned : copyFragments memcpy env h bo gpuOffset size m = (.ret 0, m')) :
    copyFragments memcpy .granting h bo gpuOffset size m = (.ret 0, m') := by
  rcases @copyFragments_granted memcpy env h bo gpuOffset size m with same | ⟨r, failed, refused⟩
  · rw [← same, returned]
  · rw [returned] at refused
    exact absurd (Outcome.ret.inj refused).symm failed

/-! ## What the loop keeps -/

/-- What every piece keeps, the loop keeps. -/
theorem copyLoop_keeps {P : CopyMem → Prop} (count : Nat) : ∀ (i startGpu pos : Nat) (m : CopyMem),
    (∀ j offset pos' len m, i ≤ j → j < i + count → pos ≤ pos' → P m →
      P (copyUnfragmented memcpy env h (bo.add j) offset pos' len m).2) →
    P m → P (copyLoop memcpy env h bo size count i startGpu pos m).2 := by
  induction count with
  | zero =>
      intro i startGpu pos m _ start
      unfold copyLoop copyDone
      split <;> exact start
  | succ count ih =>
      intro i startGpu pos m each start
      unfold copyLoop
      dsimp only
      generalize (if sub64 size startGpu < fragmentSize then sub64 size startGpu
        else fragmentSize) = left
      by_cases finished : left = 0
      · rw [if_pos finished]
        unfold copyDone
        split <;> exact start
      · rw [if_neg finished]
        have here := each i (startGpu % fragmentSize) pos (sub64 left (startGpu % fragmentSize)) m
          (Nat.le_refl i) (by omega) (Nat.le_refl pos) start
        generalize copyUnfragmented memcpy env h (bo.add i) (startGpu % fragmentSize) pos
          (sub64 left (startGpu % fragmentSize)) m = reply at here ⊢
        obtain ⟨ending, m₁⟩ := reply
        cases ending with
        | ret r =>
            dsimp only
            split
            · exact here
            · refine ih _ _ _ _ (fun j offset pos' len m lo hi later => ?_) here
              exact each j offset pos' len m (by omega) (by omega) (by omega)
        | abort text => exact here
        | fault f => exact here

/-! ## What a read has copied that was refused a mapping -/

/-- Reading a fragment fills its own part of the block. -/
theorem copyUnfragmented_host {pos o : Nat} {m : CopyMem} (outside : ¬ (pos ≤ o ∧ o < pos + size)) :
    (copyUnfragmented memcpyFromGpu env h bo gpuOffset pos size m).2.host o = m.host o := by
  unfold copyUnfragmented
  split
  · rfl
  · split
    · rfl
    · split
      · rfl
      · split
        · rfl
        · split
          · rfl
          · unfold memcpyFromGpu
            split
            · rfl
            · next copied =>
                split at copied
                · obtain rfl := Except.ok.inj copied
                  exact Move.into_of_notMem _ _ outside
                · exact absurd copied (by simp)

/-- The loop fills the block from its position on. -/
theorem copyLoop_host {o : Nat} (count i startGpu pos : Nat) (m : CopyMem) (below : o < pos) :
    (copyLoop memcpyFromGpu env h bo size count i startGpu pos m).2.host o = m.host o := by
  refine copyLoop_keeps (P := fun m' => m'.host o = m.host o) count i startGpu pos m
    (fun j offset pos' len m' _ _ later same => ?_) rfl
  rw [copyUnfragmented_host (by omega), same]

/-- The fragments are copied in order, so what was copied before a refusal is a beginning of
what there was to copy. -/
theorem copyLoop_cut (count : Nat) : ∀ (i startGpu pos : Nat) (m : CopyMem), ∃ n ≥ pos, ∀ o,
    (copyLoop memcpyFromGpu env h bo size count i startGpu pos m).2.host o =
      if o < n then (copyLoop memcpyFromGpu .granting h bo size count i startGpu pos m).2.host o
      else m.host o := by
  induction count with
  | zero =>
      intro i startGpu pos m
      refine ⟨pos, Nat.le_refl pos, fun o => ?_⟩
      unfold copyLoop copyDone
      split <;> split <;> rfl
  | succ count ih =>
      intro i startGpu pos m
      have kept := fun o => @copyLoop_host .granting h bo size o (count + 1) i startGpu pos m
      unfold copyLoop at kept ⊢
      dsimp only at kept ⊢
      generalize (if sub64 size startGpu < fragmentSize then sub64 size startGpu
        else fragmentSize) = left at kept ⊢
      by_cases finished : left = 0
      · rw [if_pos finished, if_pos finished]
        refine ⟨pos, Nat.le_refl pos, fun o => ?_⟩
        unfold copyDone
        split <;> split <;> rfl
      · rw [if_neg finished] at kept
        rw [if_neg finished, if_neg finished]
        rcases @copyUnfragmented_granted memcpyFromGpu env h (bo.add i) (startGpu % fragmentSize)
          (sub64 left (startGpu % fragmentSize)) pos m with same | ⟨r, failed, refused⟩
        · have filled := fun o => @copyUnfragmented_host .granting h (bo.add i)
            (startGpu % fragmentSize) (sub64 left (startGpu % fragmentSize)) pos o m
          rw [same]
          generalize copyUnfragmented memcpyFromGpu .granting h (bo.add i)
            (startGpu % fragmentSize) pos (sub64 left (startGpu % fragmentSize)) m = reply
            at filled ⊢
          obtain ⟨ending, m₁⟩ := reply
          -- where nothing follows, the two have copied the same
          have last : ∃ n ≥ pos, ∀ o, m₁.host o = if o < n then m₁.host o else m.host o := by
            refine ⟨pos + sub64 left (startGpu % fragmentSize), Nat.le_add_right _ _, fun o => ?_⟩
            split
            · rfl
            · exact filled o (by omega)
          cases ending with
          | ret r =>
              by_cases failed : r ≠ 0
              · simp only [if_pos failed]
                exact last
              · simp only [if_neg failed]
                obtain ⟨n, past, cut⟩ := ih (i + 1)
                  (add64 startGpu (sub64 left (startGpu % fragmentSize)))
                  (pos + sub64 left (startGpu % fragmentSize)) m₁
                refine ⟨n, by omega, fun o => ?_⟩
                rw [cut o]
                split
                · rfl
                · exact filled o (by omega)
          | abort text => exact last
          | fault f => exact last
        · rw [refused]
          simp only [if_pos failed]
          refine ⟨pos, Nat.le_refl pos, fun o => ?_⟩
          split
          · next below => exact (kept o below).symm
          · rfl

/-- **A read that was refused a mapping** has filled the beginning of the block, with what a
driver that grants everything would have put there. -/
theorem computeCopyFromGpu_cut (env : MmapEnv) (h : Heap) (bo : BufPtr) (gpuOffset size : Nat)
    (m : CopyMem) : ∃ n, ∀ o, (computeCopyFromGpu env h bo gpuOffset size m).2.host o =
      if o < n then (computeCopyFromGpu .granting h bo gpuOffset size m).2.host o
      else m.host o := by
  unfold computeCopyFromGpu copyFragments
  cases loaded : h.loadBuffer bo with
  | error f => exact ⟨0, fun o => by simp⟩
  | ok b =>
      dsimp only
      split
      · obtain ⟨n, -, cut⟩ := copyLoop_cut (b.fragmentNumber - gpuOffset / fragmentSize)
          (gpuOffset / fragmentSize) gpuOffset 0 m
        exact ⟨n, cut⟩
      · exact ⟨0, fun o => by simp⟩

/-- Writing a fragment changes the object of the fragment only. -/
theorem copyUnfragmented_vram {pos x : Nat} {m : CopyMem} (other : (h.buffer bo).handle ≠ x) :
    (copyUnfragmented memcpyToGpu env h bo gpuOffset pos size m).2.vram x = m.vram x := by
  unfold copyUnfragmented
  cases loaded : h.loadBuffer bo with
  | error f => rfl
  | ok b =>
      obtain rfl := Heap.loadBuffer_ok loaded
      dsimp only
      split
      · rfl
      · split
        · rfl
        · split
          · rfl
          · split
            · rfl
            · unfold memcpyToGpu
              split
              · rfl
              · next copied =>
                  split at copied
                  · obtain rfl := Except.ok.inj copied
                    show Function.update m.vram _ _ x = _
                    rw [Function.update_of_ne (Ne.symm other)]
                  · exact absurd copied (by simp)

theorem copyLoop_vram {x : Nat} (count i startGpu pos : Nat) (m : CopyMem)
    (others : ∀ j, i ≤ j → j < i + count → (h.buffer (bo.add j)).handle ≠ x) :
    (copyLoop memcpyToGpu env h bo size count i startGpu pos m).2.vram x = m.vram x := by
  refine copyLoop_keeps (P := fun m' => m'.vram x = m.vram x) count i startGpu pos m
    (fun j offset pos' len m' lo hi _ same => ?_) rfl
  rw [copyUnfragmented_vram (others j lo hi), same]

/-- **A write touches no other buffer**: the objects behind other handles hold
what they held, however it ends. -/
theorem computeCopyToGpu_vram {x : Nat} {m : CopyMem}
    (others : ∀ j < (h.buffer bo).fragmentNumber, (h.buffer (bo.add j)).handle ≠ x) :
    (computeCopyToGpu env h bo gpuOffset size m).2.vram x = m.vram x := by
  unfold computeCopyToGpu copyFragments
  cases loaded : h.loadBuffer bo with
  | error f => rfl
  | ok b =>
      obtain rfl := Heap.loadBuffer_ok loaded
      dsimp only
      split
      · next inside => exact copyLoop_vram _ _ _ _ _ fun j lo hi => others j (by omega)
      · rfl

end RadeonsiCompute
