import RadeonsiCompute.Transfer.Plan

/-!
# When a transfer is exact

A transfer inside the buffer should copy the requested bytes and no others, in
both directions. The loop takes `size - start_gpu` for the bytes left, though
`start_gpu` starts at the offset: with an offset it stops early, runs past the
caller's block, or misplaces bytes. `exactTransfer_iff` says exactly which
requests come out right: those at offset 0, and those that are shorter than
their offset and end with the last full fragment.
-/

namespace RadeonsiCompute

open Lib

/-- Byte `o` of a buffer, where the copy functions look for it. -/
def Heap.flatByte (h : Heap) (bo : BufPtr) (m : CopyMem) (o : Nat) : Byte :=
  m.vram (h.buffer (bo.add (o / fragmentSize))).handle (o % fragmentSize)

/-- A transfer of `size` bytes at an offset writes and reads exactly those
bytes of the buffer, whatever the memory holds. -/
structure ExactTransfer (env : MmapEnv) (h : Heap) (bo : BufPtr) (total gpuOffset size : Nat) :
    Prop where
  write : ∀ m : CopyMem, m.hostSize = size → ∃ m',
    computeCopyToGpu env h bo gpuOffset size m = (.ret 0, m') ∧
      ∀ o < total, h.flatByte bo m' o =
        if gpuOffset ≤ o ∧ o < gpuOffset + size then m.host (o - gpuOffset)
        else h.flatByte bo m o
  read : ∀ m : CopyMem, m.hostSize = size → ∃ m',
    computeCopyFromGpu env h bo gpuOffset size m = (.ret 0, m') ∧
      (∀ i < size, m'.host i = h.flatByte bo m (gpuOffset + i)) ∧ m'.vram = m.vram
  roundTrip : ∀ (m : CopyMem) (dst : Nat → Byte), m.hostSize = size → ∃ m₁ m₂,
    computeCopyToGpu env h bo gpuOffset size m = (.ret 0, m₁) ∧
      computeCopyFromGpu env h bo gpuOffset size { m₁ with host := dst } = (.ret 0, m₂) ∧
        ∀ i < size, m₂.host i = m.host i

/-- The piece as a move from the caller's block to the flat buffer. -/
def Chunk.move (c : Chunk) : Move :=
  { dst := c.fragment * fragmentSize + c.offset, src := c.pos, len := c.len }

/-- The piece lies in its fragment. -/
def Chunk.Fits (c : Chunk) (total : Nat) : Prop :=
  c.fragment < fragmentCount total ∧ c.offset + c.len ≤ fragmentBytes total c.fragment

/-! ## Running a plan -/

section Run

variable {h : Heap} {bo : BufPtr} {total : Nat}

/-- Writing a piece is a move on the flat buffer. -/
theorem flatByte_memcpyToGpu (buffer : Fragmented h bo total) {c : Chunk} (fits : c.Fits total)
    (m : CopyMem) {o : Nat} (inside : o / fragmentSize < fragmentCount total) :
    h.flatByte bo { m with
        vram := Function.update m.vram (h.buffer (bo.add c.fragment)).handle
          ((Move.mk c.offset c.pos c.len).into (m.vram (h.buffer (bo.add c.fragment)).handle)
            m.host) } o =
      c.move.into (h.flatByte bo m) m.host o := by
  obtain ⟨fragment, room⟩ := fits
  have full := @fragmentBytes_le total c.fragment
  have split := Nat.div_add_mod o fragmentSize
  have small := Nat.mod_lt o fragmentSize_pos
  rw [Nat.mul_comm] at split
  by_cases same : o / fragmentSize = c.fragment
  · rw [same] at split
    simp only [Heap.flatByte, same, Function.update_self, Move.into, Chunk.move]
    by_cases covered : c.offset ≤ o % fragmentSize ∧ o % fragmentSize < c.offset + c.len
    · rw [if_pos covered, if_pos (by omega)]
      congr 1
      omega
    · rw [if_neg covered, if_neg (by omega)]
  · have other : (h.buffer (bo.add (o / fragmentSize))).handle ≠
        (h.buffer (bo.add c.fragment)).handle := fun equal =>
      same (buffer.handles _ inside _ fragment equal)
    -- the piece stays in its own 64 MiB
    have outside : ¬ (c.move.dst ≤ o ∧ o < c.move.dst + c.move.len) := by
      rintro ⟨lo, hi⟩
      simp only [Chunk.move] at lo hi
      refine same (Nat.div_eq_of_lt_le (by omega) ?_)
      rw [Nat.succ_mul]
      omega
    rw [Move.into_of_notMem _ _ outside]
    simp only [Heap.flatByte, Function.update_of_ne other]

/-- Reading a piece is a move from the flat buffer. -/
theorem into_vram_eq {c : Chunk} (fits : c.Fits total) (m : CopyMem) :
    (Move.mk c.pos c.offset c.len).into m.host (m.vram (h.buffer (bo.add c.fragment)).handle) =
      c.move.swap.into m.host (h.flatByte bo m) := by
  obtain ⟨-, room⟩ := fits
  have full := @fragmentBytes_le total c.fragment
  funext a
  by_cases covered : c.pos ≤ a ∧ a < c.pos + c.len
  · have inFragment : c.offset + (a - c.pos) < fragmentSize := by omega
    have address : c.fragment * fragmentSize + c.offset + (a - c.pos) =
        (c.offset + (a - c.pos)) + fragmentSize * c.fragment := by
      rw [Nat.mul_comm fragmentSize]
      omega
    rw [Move.into_of_mem _ _ covered.1 covered.2,
      @Move.into_of_mem _ c.move.swap _ _ _ covered.1 covered.2]
    show _ = h.flatByte bo m (c.fragment * fragmentSize + c.offset + (a - c.pos))
    rw [Heap.flatByte, address, Nat.add_mul_div_left _ _ fragmentSize_pos,
      Nat.add_mul_mod_self_left, Nat.div_eq_of_lt inFragment, Nat.mod_eq_of_lt inFragment,
      Nat.zero_add]
  · rw [Move.into_of_notMem _ _ covered, @Move.into_of_notMem _ c.move.swap _ _ _ covered]

/-- Pieces that fit are all written. -/
theorem runChunks_toGpu (buffer : Fragmented h bo total) (cs : List Chunk) : ∀ m : CopyMem,
    (∀ c ∈ cs, c.Fits total ∧ c.pos + c.len ≤ m.hostSize) →
    ∃ m', runChunks memcpyToGpu (fun j => h.buffer (bo.add j)) cs m = (none, m') ∧
      m'.host = m.host ∧ m'.hostSize = m.hostSize ∧
      ∀ o, o / fragmentSize < fragmentCount total → h.flatByte bo m' o =
        (cs.map Chunk.move).foldl (fun g mv => mv.into g m.host) (h.flatByte bo m) o := by
  induction cs with
  | nil => intro m _; exact ⟨m, rfl, rfl, rfl, fun _ _ => rfl⟩
  | cons c cs ih =>
      intro m fit
      obtain ⟨fits, room⟩ := fit c List.mem_cons_self
      have bound : c.offset + c.len ≤ (h.buffer (bo.add c.fragment)).size := by
        rw [buffer.size _ fits.1]
        exact fits.2
      have here := @flatByte_memcpyToGpu h bo total buffer c fits m
      generalize written : ({ m with
        vram := Function.update m.vram (h.buffer (bo.add c.fragment)).handle
          ((Move.mk c.offset c.pos c.len).into (m.vram (h.buffer (bo.add c.fragment)).handle)
            m.host) } : CopyMem) = m₁ at here
      have copied : memcpyToGpu (h.buffer (bo.add c.fragment)) c.offset c.pos c.len m = .ok m₁ := by
        rw [memcpyToGpu, if_pos (.inr ⟨bound, room⟩), written]
      have host : m₁.host = m.host := by rw [← written]
      have hostSize : m₁.hostSize = m.hostSize := by rw [← written]
      obtain ⟨m', run, host', hostSize', bytes⟩ := ih m₁ (by
        rw [hostSize]
        exact fun c' later => fit c' (List.mem_cons_of_mem _ later))
      refine ⟨m', ?_, host'.trans host, hostSize'.trans hostSize, fun o inside => ?_⟩
      · simp only [runChunks, copied]
        exact run
      · rw [bytes o inside, host, List.map_cons, List.foldl_cons]
        exact Move.foldl_into_congr _ (here inside)

/-- Pieces that fit are all read, and reading changes no object. -/
theorem runChunks_fromGpu (buffer : Fragmented h bo total) (cs : List Chunk) : ∀ m : CopyMem,
    (∀ c ∈ cs, c.Fits total ∧ c.pos + c.len ≤ m.hostSize) →
    ∃ m', runChunks memcpyFromGpu (fun j => h.buffer (bo.add j)) cs m = (none, m') ∧
      m'.vram = m.vram ∧
      m'.host = ((cs.map Chunk.move).map Move.swap).foldl
        (fun g mv => mv.into g (h.flatByte bo m)) m.host := by
  induction cs with
  | nil => intro m _; exact ⟨m, rfl, rfl, rfl⟩
  | cons c cs ih =>
      intro m fit
      obtain ⟨fits, room⟩ := fit c List.mem_cons_self
      have bound : c.offset + c.len ≤ (h.buffer (bo.add c.fragment)).size := by
        rw [buffer.size _ fits.1]
        exact fits.2
      have here := @into_vram_eq h bo total c fits m
      obtain ⟨m', run, vram, host⟩ := ih { m with host := c.move.swap.into m.host (h.flatByte bo m) }
        (fun c' later => fit c' (List.mem_cons_of_mem _ later))
      refine ⟨m', ?_, vram, host⟩
      simp only [runChunks, memcpyFromGpu, if_pos (Or.inr (And.intro bound room)), here]
      exact run

end Run

/-! ## Plans that cover the request -/

/-- One right step: as many bytes as are wanted and the fragment still has. -/
theorem next_chunk {total stop start i : Nat} (stopLe : stop ≤ total) (inside : start < stop)
    (here : start / fragmentSize = i) :
    0 < min (stop - start) (fragmentSize - start % fragmentSize) ∧
      start % fragmentSize + min (stop - start) (fragmentSize - start % fragmentSize) ≤
        fragmentBytes total i ∧
      i * fragmentSize + start % fragmentSize = start ∧
      (start + min (stop - start) (fragmentSize - start % fragmentSize) < stop →
        (start + min (stop - start) (fragmentSize - start % fragmentSize)) / fragmentSize = i + 1 ∧
        (start + min (stop - start) (fragmentSize - start % fragmentSize)) % fragmentSize = 0) ∧
      start + min (stop - start) (fragmentSize - start % fragmentSize) ≤ (i + 1) * fragmentSize := by
  unfold fragmentBytes
  rw [fragmentSize_eq] at here ⊢
  omega

/-- If every step from the offset on is right, the plan tiles the request. -/
theorem planLoop_tiles {total size off stop : Nat} (request : RequestOk total)
    (stopLe : stop ≤ total)
    (next : ∀ start, off ≤ start → start < stop → start = off ∨ start % fragmentSize = 0 →
      localSize size start ≠ 0 ∧
        sub64 (localSize size start) (start % fragmentSize) =
          min (stop - start) (fragmentSize - start % fragmentSize))
    (ends : sub64 size stop = 0 ∨ stop = fragmentCount total * fragmentSize) (count : Nat) :
    ∀ i start, i + count = fragmentCount total → off ≤ start → start ≤ stop →
      (start < stop → start / fragmentSize = i ∧ (start = off ∨ start % fragmentSize = 0)) →
      (start = stop → count = 0 ∨ sub64 size stop = 0) →
      ∃ cs, planLoop total size count i start (start - off) = (cs, true) ∧
        Tiles (cs.map Chunk.move) start (start - off) (stop - start) ∧ ∀ c ∈ cs, c.Fits total := by
  have whole := wholeSize_lt request
  have stopCount : ¬ fragmentCount total * fragmentSize < total :=
    mt lt_fragmentCount.mpr (Nat.lt_irrefl _)
  induction count with
  | zero =>
      intro i start total_eq lo hi cursor _
      -- no fragment is left, and a cursor inside one would be past the last
      have finished : start = stop := by
        by_contra unfinished
        have here := (cursor (by omega)).1
        obtain ⟨-, -, address, -⟩ := next_chunk stopLe (by omega) here
        rw [Nat.add_zero] at total_eq
        rw [total_eq] at address
        omega
      refine ⟨[], rfl, ?_, by simp⟩
      rw [finished, Nat.sub_self]
      exact .nil
  | succ count ih =>
      intro i start total_eq lo hi cursor done
      by_cases finished : start = stop
      · have nothing : localSize size start = 0 := by
          rw [finished, localSize, (done finished).resolve_left (by omega)]
          exact Nat.zero_min _
        refine ⟨[], planLoop_finished nothing, ?_, by simp⟩
        rw [finished, Nat.sub_self]
        exact .nil
      · obtain ⟨here, aligned⟩ := cursor (by omega)
        obtain ⟨some, len⟩ := next start lo (by omega) aligned
        obtain ⟨positive, fits, address, advance, limit⟩ := next_chunk stopLe (by omega) here
        have full := @fragmentBytes_le total i
        have small := fragmentSize_lt
        have offset := Nat.mod_lt start fragmentSize_pos
        generalize lenEq : min (stop - start) (fragmentSize - start % fragmentSize) = n at *
        have room : n ≤ add64 (fragmentBytes total i) (start % fragmentSize) := by
          rw [add64_of_lt (by omega)]
          omega
        have bound : n ≤ stop - start := by omega
        obtain ⟨cs, plan, tiles, fit⟩ := ih (i + 1) (start + n) (by omega) (by omega) (by omega)
          (fun more => ⟨(advance more).1, .inr (advance more).2⟩) (by
            intro reached
            rcases ends with nothing | last
            · exact .inr nothing
            · refine .inl ?_
              have : fragmentCount total ≤ i + 1 := by
                refine Nat.le_of_mul_le_mul_right ?_ fragmentSize_pos
                omega
              omega)
        rw [planLoop_step some len room, add64_of_lt (show start + n < 2 ^ 64 by omega),
          show start - off + n = start + n - off by omega, plan]
        refine ⟨_, rfl, ?_, ?_⟩
        · have head : (Chunk.mk i (start % fragmentSize) (start - off) n).move =
              { dst := start, src := start - off, len := n } := by
            rw [Chunk.move, address]
          rw [List.map_cons, head, show stop - start = n + (stop - (start + n)) by omega]
          refine Tiles.cons (m := { dst := start, src := start - off, len := n }) ?_
          rw [show start - off + n = start + n - off by omega]
          exact tiles
        · intro c member
          rcases List.mem_cons.mp member with rfl | later
          · exact ⟨by show i < fragmentCount total; omega, fits⟩
          · exact fit c later

/-- The requests that come out right. -/
def Straight (total gpuOffset size : Nat) : Prop :=
  gpuOffset = 0 ∨
    size < gpuOffset ∧ gpuOffset + size = fragmentCount total * fragmentSize

/-- Every step of a straight request is right. -/
theorem Straight.next {total gpuOffset size : Nat} (request : RequestOk total)
    (inRange : gpuOffset + size ≤ total) (straight : Straight total gpuOffset size) {start : Nat}
    (lo : gpuOffset ≤ start) (hi : start < gpuOffset + size)
    (aligned : start = gpuOffset ∨ start % fragmentSize = 0) :
    localSize size start ≠ 0 ∧ sub64 (localSize size start) (start % fragmentSize) =
      min (gpuOffset + size - start) (fragmentSize - start % fragmentSize) := by
  have whole := wholeSize_lt request
  have stopCount : ¬ fragmentCount total * fragmentSize < total :=
    mt lt_fragmentCount.mpr (Nat.lt_irrefl _)
  have small := fragmentSize_lt
  have big := fragmentSize_pos
  have offset := Nat.mod_lt start fragmentSize_pos
  rcases straight with rfl | ⟨short, last⟩
  · -- from 0 on, every step starts at a fragment
    have zero : start % fragmentSize = 0 := by
      rcases aligned with rfl | zero
      · exact Nat.zero_mod _
      · exact zero
    rw [zero, localSize, sub64_of_le (by omega) (by omega), sub64_of_le (by omega) (by omega)]
    omega
  · -- the bytes left wrap, so each step takes the rest of a full fragment
    have wrapped : localSize size start = fragmentSize := by
      rw [localSize, sub64_of_lt (by omega) (by omega)]
      omega
    have rest : fragmentSize - start % fragmentSize ≤ gpuOffset + size - start := by
      have split := Nat.div_add_mod start fragmentSize
      have before : start / fragmentSize < fragmentCount total :=
        Nat.div_lt_of_lt_mul (by rw [Nat.mul_comm]; omega)
      have := Nat.mul_le_mul_right fragmentSize (Nat.succ_le_of_lt before)
      rw [Nat.succ_mul, Nat.mul_comm (start / fragmentSize)] at this
      omega
    rw [wrapped, sub64_of_le (by omega) (by omega)]
    omega

/-- The plan of a straight request tiles it. -/
theorem Straight.plan {total gpuOffset size : Nat} (request : RequestOk total)
    (positive : 0 < size) (inRange : gpuOffset + size ≤ total)
    (straight : Straight total gpuOffset size) :
    ∃ cs, planLoop total size (fragmentCount total - gpuOffset / fragmentSize)
        (gpuOffset / fragmentSize) gpuOffset 0 = (cs, true) ∧
      Tiles (cs.map Chunk.move) gpuOffset 0 size ∧
      ∀ c ∈ cs, c.Fits total ∧ c.pos + c.len ≤ size := by
  have whole := wholeSize_lt request
  have first : gpuOffset / fragmentSize < fragmentCount total :=
    (mod_lt_fragmentBytes (show gpuOffset < total by omega)).1
  have ends : sub64 size (gpuOffset + size) = 0 ∨
      gpuOffset + size = fragmentCount total * fragmentSize := by
    rcases straight with rfl | ⟨-, last⟩
    · refine .inl ?_
      rw [sub64_of_le (by omega) (by omega)]
      omega
    · exact .inr last
  obtain ⟨cs, plan, tiles, fits⟩ := planLoop_tiles request inRange
    (fun _ => straight.next request inRange) ends
    (fragmentCount total - gpuOffset / fragmentSize) (gpuOffset / fragmentSize) gpuOffset
    (by omega) (Nat.le_refl _) (by omega) (fun _ => ⟨rfl, .inl rfl⟩) (by omega)
  rw [Nat.sub_self] at plan tiles
  rw [Nat.add_sub_cancel_left] at tiles
  refine ⟨cs, plan, tiles, fun c member => ⟨fits c member, ?_⟩⟩
  have bounds := (tiles.bounds c.move (List.mem_map_of_mem member)).2.2.2
  rwa [Nat.zero_add] at bounds

/-! ## Straight requests are exact -/

section Exact

variable {env : MmapEnv} {h : Heap} {bo : BufPtr} {total gpuOffset size : Nat}

/-- A straight write. -/
theorem Straight.write (env_ok : env.Succeeds) (buffer : Fragmented h bo total)
    (positive : 0 < size) (inRange : gpuOffset + size ≤ total)
    (straight : Straight total gpuOffset size) (m : CopyMem) (block : m.hostSize = size) :
    ∃ m', computeCopyToGpu env h bo gpuOffset size m = (.ret 0, m') ∧ m'.hostSize = size ∧
      ∀ o < total, h.flatByte bo m' o =
        if gpuOffset ≤ o ∧ o < gpuOffset + size then m.host (o - gpuOffset)
        else h.flatByte bo m o := by
  obtain ⟨cs, plan, tiles, fits⟩ := straight.plan buffer.request positive inRange
  obtain ⟨m', run, -, hostSize, bytes⟩ := runChunks_toGpu buffer cs m (by rw [block]; exact fits)
  refine ⟨m', ?_, hostSize.trans block, fun o ho => ?_⟩
  · rw [computeCopyToGpu, copyFragments_eq_plan env_ok buffer,
      if_pos ((mod_lt_fragmentBytes (show gpuOffset < total by omega)).1), plan]
    simp only [runPlan, run, copyDone, if_true, if_pos (show size ≠ 0 by omega)]
  · rw [bytes o (mod_lt_fragmentBytes ho).1, tiles.foldl_into]
    by_cases covered : gpuOffset ≤ o ∧ o < gpuOffset + size
    · rw [Move.into_of_mem _ _ covered.1 covered.2, if_pos covered, Nat.zero_add]
    · rw [Move.into_of_notMem _ _ covered, if_neg covered]

/-- A straight read. -/
theorem Straight.read (env_ok : env.Succeeds) (buffer : Fragmented h bo total)
    (positive : 0 < size) (inRange : gpuOffset + size ≤ total)
    (straight : Straight total gpuOffset size) (m : CopyMem) (block : m.hostSize = size) :
    ∃ m', computeCopyFromGpu env h bo gpuOffset size m = (.ret 0, m') ∧
      (∀ i < size, m'.host i = h.flatByte bo m (gpuOffset + i)) ∧ m'.vram = m.vram := by
  obtain ⟨cs, plan, tiles, fits⟩ := straight.plan buffer.request positive inRange
  obtain ⟨m', run, vram, host⟩ := runChunks_fromGpu buffer cs m (by rw [block]; exact fits)
  refine ⟨m', ?_, fun i hi => ?_, vram⟩
  · rw [computeCopyFromGpu, copyFragments_eq_plan env_ok buffer,
      if_pos ((mod_lt_fragmentBytes (show gpuOffset < total by omega)).1), plan]
    simp only [runPlan, run, copyDone, if_true, if_pos (show size ≠ 0 by omega)]
  · rw [host, tiles.swap.foldl_into, Move.into_of_mem _ _ (Nat.zero_le i) (by simpa using hi)]
    rfl

theorem Straight.exact (env_ok : env.Succeeds) (buffer : Fragmented h bo total)
    (positive : 0 < size) (inRange : gpuOffset + size ≤ total)
    (straight : Straight total gpuOffset size) :
    ExactTransfer env h bo total gpuOffset size where
  write m block := by
    obtain ⟨m', run, -, bytes⟩ := straight.write env_ok buffer positive inRange m block
    exact ⟨m', run, bytes⟩
  read m block := straight.read env_ok buffer positive inRange m block
  roundTrip m dst block := by
    obtain ⟨m₁, write, block₁, bytes⟩ := straight.write env_ok buffer positive inRange m block
    obtain ⟨m₂, read, back, -⟩ :=
      straight.read env_ok buffer positive inRange { m₁ with host := dst } block₁
    refine ⟨m₁, m₂, write, read, fun i hi => ?_⟩
    have written := bytes (gpuOffset + i) (by omega)
    rw [if_pos (by omega), Nat.add_sub_cancel_left] at written
    rw [back i hi, ← written]
    rfl

/-! ## Other requests are not -/

/-- With the offset inside the size, the loop reads the caller's block only up
to `size - gpuOffset`. -/
theorem planLoop_pos_le {off : Nat} (request : RequestOk total) (small : size ≤ total)
    (count : Nat) : ∀ i start, off ≤ start → start ≤ size →
      ∀ c ∈ (planLoop total size count i start (start - off)).1, c.pos + c.len ≤ size - off := by
  have whole := wholeSize_lt request
  induction count with
  | zero => intro i start _ _ c member; exact absurd member (by simp [planLoop])
  | succ count ih =>
      intro i start lo hi c member
      have full := @fragmentBytes_le total i
      have unit := fragmentSize_lt
      have offset := Nat.mod_lt start fragmentSize_pos
      have capped : localSize size start ≤ size - start := by
        rw [localSize, sub64_of_le (by omega) hi]
        exact Nat.min_le_left _ _
      by_cases finished : localSize size start = 0
      · rw [planLoop_finished finished] at member
        exact absurd member (by simp)
      have room : add64 (fragmentBytes total i) (start % fragmentSize) =
          fragmentBytes total i + start % fragmentSize := add64_of_lt (by omega)
      obtain ⟨n, len⟩ : ∃ n, sub64 (localSize size start) (start % fragmentSize) = n := ⟨_, rfl⟩
      by_cases large : add64 (fragmentBytes total i) (start % fragmentSize) < n
      · rw [planLoop_large finished len large] at member
        exact absurd member (by simp)
      · rw [planLoop_step finished len (by omega)] at member
        -- a local size below the offset would have wrapped to a huge length
        have noWrap : start % fragmentSize ≤ localSize size start := by
          by_contra wraps
          rw [sub64_of_lt (by omega) (by omega)] at len
          omega
        rw [sub64_of_le (by omega) noWrap] at len
        rw [add64_of_lt (show start + n < 2 ^ 64 by omega),
          show start - off + n = start + n - off by omega] at member
        rcases List.mem_cons.mp member with rfl | later
        · show start - off + n ≤ size - off
          omega
        · exact ih (i + 1) (start + n) (by omega) (by omega) c later

/-- A byte of an object is its old byte or one of the caller's: what holds of
both holds afterwards, wherever the copying stops. -/
theorem runChunks_byte {fragment : Nat → GpuBuffer} {P : Byte → Prop} (cs : List Chunk) :
    ∀ m : CopyMem, (∀ c ∈ cs, ∀ i < c.pos + c.len, P (m.host i)) → ∀ x y, P (m.vram x y) →
      P ((runChunks memcpyToGpu fragment cs m).2.vram x y) := by
  induction cs with
  | nil => intro m _ x y old; exact old
  | cons c cs ih =>
      intro m host x y old
      rw [runChunks]
      by_cases room : c.len = 0 ∨
          c.offset + c.len ≤ (fragment c.fragment).size ∧ c.pos + c.len ≤ m.hostSize
      · simp only [memcpyToGpu, if_pos room]
        have written : P (Function.update m.vram (fragment c.fragment).handle
            ((Move.mk c.offset c.pos c.len).into (m.vram (fragment c.fragment).handle) m.host)
            x y) := by
          by_cases same : x = (fragment c.fragment).handle
          · subst same
            simp only [Function.update_self, Move.into]
            split
            · exact host c List.mem_cons_self _ (by omega)
            · exact old
          · simp only [Function.update_of_ne same]
            exact old
        generalize Function.update m.vram _ _ = vram at written ⊢
        exact ih { m with vram } (fun c' later => host c' (List.mem_cons_of_mem _ later)) x y written
      · simp only [memcpyToGpu, if_neg room]
        exact old

/-- With the size below the cursor, the loop wants the rest of the fragment. -/
theorem long_step {start i : Nat} (request : RequestOk total) (hi : i < fragmentCount total)
    (short : size < start) (here : start / fragmentSize = i) :
    localSize size start = fragmentSize ∧
      sub64 (localSize size start) (start % fragmentSize) =
        fragmentSize - start % fragmentSize ∧
      start + (fragmentSize - start % fragmentSize) = (i + 1) * fragmentSize ∧
      start + (fragmentSize - start % fragmentSize) < 2 ^ 59 := by
  have many := request.2
  rw [indexRange_eq] at many
  have split := Nat.div_add_mod start fragmentSize
  have offset := Nat.mod_lt start fragmentSize_pos
  rw [here, Nat.mul_comm] at split
  have limit : (i + 1) * fragmentSize < 2 ^ 59 := by
    rw [fragmentSize_eq]
    omega
  rw [Nat.succ_mul] at limit ⊢
  have unit := fragmentSize_lt
  have wanted : localSize size start = fragmentSize := by
    rw [localSize, sub64_of_lt (by omega) short]
    exact Nat.min_eq_right (by omega)
  refine ⟨wanted, ?_, by omega, by omega⟩
  rw [wanted, sub64_of_le (by omega) (by omega)]

/-- With the size below the offset, a plan that gets to the end copies every
byte up to the end of the last full fragment. -/
theorem planLoop_reaches {off : Nat} (request : RequestOk total) (count : Nat) :
    ∀ i start, i + (count + 1) = fragmentCount total → off ≤ start → size < start →
      start / fragmentSize = i →
      (planLoop total size (count + 1) i start (start - off)).2 = true →
      ∃ c ∈ (planLoop total size (count + 1) i start (start - off)).1,
        0 < c.len ∧ c.pos + c.len = fragmentCount total * fragmentSize - off := by
  have whole := wholeSize_lt request
  have many := request.2
  rw [indexRange_eq] at many
  have limit : fragmentCount total * fragmentSize < 2 ^ 58 := by
    rw [fragmentSize_eq]
    omega
  induction count with
  | zero =>
      intro i start total_eq lo short here planned
      obtain ⟨wanted, len, advance, -⟩ := long_step request (by omega) short here
      have offset := Nat.mod_lt start fragmentSize_pos
      have nonzero : localSize size start ≠ 0 := by omega
      by_cases large : add64 (fragmentBytes total i) (start % fragmentSize) <
          fragmentSize - start % fragmentSize
      · rw [planLoop_large nonzero len large] at planned
        exact absurd planned (by simp)
      · rw [planLoop_step nonzero len (by omega)]
        refine ⟨_, List.mem_cons_self, by show 0 < fragmentSize - start % fragmentSize; omega, ?_⟩
        rw [← total_eq, Nat.zero_add, ← advance]
        show start - off + (fragmentSize - start % fragmentSize) = _
        omega
  | succ count ih =>
      intro i start total_eq lo short here planned
      obtain ⟨wanted, len, advance, small⟩ := long_step request (by omega) short here
      have offset := Nat.mod_lt start fragmentSize_pos
      have nonzero : localSize size start ≠ 0 := by omega
      by_cases large : add64 (fragmentBytes total i) (start % fragmentSize) <
          fragmentSize - start % fragmentSize
      · rw [planLoop_large nonzero len large] at planned
        exact absurd planned (by simp)
      · rw [planLoop_step nonzero len (by omega)] at planned ⊢
        rw [add64_of_lt (by omega), show start - off + (fragmentSize - start % fragmentSize) =
          start + (fragmentSize - start % fragmentSize) - off by omega] at planned ⊢
        obtain ⟨c, member, reached⟩ := ih (i + 1) (start + (fragmentSize - start % fragmentSize))
          (by omega) (by omega) (by omega) (by
            rw [advance, Nat.mul_div_cancel _ fragmentSize_pos]) planned
        exact ⟨c, List.mem_cons_of_mem _ member, reached⟩

/-- Copying that came to the end left no piece out. -/
theorem runChunks_rooms {fragment : Nat → GpuBuffer} (cs : List Chunk) : ∀ m : CopyMem,
    (runChunks memcpyToGpu fragment cs m).1 = none →
      ∀ c ∈ cs, c.len = 0 ∨ c.pos + c.len ≤ m.hostSize := by
  induction cs with
  | nil => intro m _ c member; exact absurd member (by simp)
  | cons c cs ih =>
      intro m finished c' member
      rw [runChunks] at finished
      by_cases room : c.len = 0 ∨
          c.offset + c.len ≤ (fragment c.fragment).size ∧ c.pos + c.len ≤ m.hostSize
      · simp only [memcpyToGpu, if_pos room] at finished
        rcases List.mem_cons.mp member with rfl | later
        · rcases room with zero | ⟨-, room⟩
          · exact .inl zero
          · exact .inr room
        · generalize Function.update m.vram _ _ = vram at finished
          exact ih { m with vram } finished c' later
      · simp only [memcpyToGpu, if_neg room] at finished
        exact absurd finished (by simp)

/-- **Exactly the straight requests are exact.** -/
theorem exactTransfer_iff (env_ok : env.Succeeds) (buffer : Fragmented h bo total)
    (positive : 0 < size) (inRange : gpuOffset + size ≤ total) :
    ExactTransfer env h bo total gpuOffset size ↔
      gpuOffset = 0 ∨ size < gpuOffset ∧
        gpuOffset + size = fragmentCount total * fragmentSize := by
  constructor
  swap
  · intro straight
    exact Straight.exact env_ok buffer positive inRange straight
  intro exact
  have whole := wholeSize_lt buffer.request
  have first := (mod_lt_fragmentBytes (show gpuOffset < total by omega)).1
  by_contra crooked
  simp only [not_or, not_and] at crooked
  obtain ⟨moved, notLast⟩ := crooked
  -- zeros everywhere but in the last byte of the block
  obtain ⟨m', run, bytes⟩ := exact.write
    { vram := fun _ _ => 0, host := fun i => if i + 1 = size then 1 else 0, hostSize := size } rfl
  rw [computeCopyToGpu, copyFragments_eq_plan env_ok buffer, if_pos first] at run
  obtain ⟨run, planned⟩ := runPlan_ret_zero run
  by_cases short : size < gpuOffset
  · -- the loop copies up to the end of the last fragment, past the block
    obtain ⟨count, some⟩ : ∃ count, fragmentCount total - gpuOffset / fragmentSize = count + 1 :=
      ⟨fragmentCount total - gpuOffset / fragmentSize - 1, by omega⟩
    have reaches := @planLoop_reaches total size gpuOffset buffer.request count
      (gpuOffset / fragmentSize) gpuOffset (by omega) (Nat.le_refl _) short rfl
    rw [Nat.sub_self, ← some] at reaches
    obtain ⟨c, member, some, reached⟩ := reaches planned
    have room := runChunks_rooms _ _ (congrArg Prod.fst run) c member
    have stopCount : ¬ fragmentCount total * fragmentSize < total :=
      mt lt_fragmentCount.mpr (Nat.lt_irrefl _)
    dsimp only at room
    omega
  · -- the last byte of the block is never copied
    have last := bytes (gpuOffset + size - 1) (by omega)
    have early := @planLoop_pos_le total size gpuOffset buffer.request (by omega)
      (fragmentCount total - gpuOffset / fragmentSize) (gpuOffset / fragmentSize) gpuOffset
      (Nat.le_refl _) (by omega)
    rw [Nat.sub_self] at early
    have zero := @runChunks_byte (fun j => h.buffer (bo.add j)) (fun b => b = 0)
      (planLoop total size (fragmentCount total - gpuOffset / fragmentSize)
        (gpuOffset / fragmentSize) gpuOffset 0).1
      { vram := fun _ _ => 0, host := fun i => if i + 1 = size then 1 else 0, hostSize := size }
      (fun c member i hi => if_neg (by have := early c member; omega))
      (h.buffer (bo.add ((gpuOffset + size - 1) / fragmentSize))).handle
      ((gpuOffset + size - 1) % fragmentSize) rfl
    rw [run] at zero
    rw [if_pos (by omega)] at last
    dsimp only at last
    rw [if_pos (by omega)] at last
    exact absurd (last.symm.trans zero) (by decide)

end Exact

/-- A driver that maps whatever it is asked to map. -/
def MmapEnv.granting : MmapEnv where
  gemMmap _ _ _ _ := 0
  mmap _ _ := true

/-- A transfer over two fragments, of a whole buffer of 100 MiB. -/
theorem exactTransfer_twoFragments :
    ExactTransfer .granting (.oneBuffer 104857600) ⟨0, 0⟩ 104857600 0 104857600 :=
  (exactTransfer_iff ⟨fun _ _ _ _ => rfl, fun _ _ => rfl⟩
    (.oneBuffer (requestOk_of_le (by decide) (by decide))) (by decide) (by decide)).mpr (.inl rfl)

/-- 50 bytes at offset 10 of a buffer of 100: the last 20 are not written. -/
theorem not_exactTransfer_offset :
    ¬ ExactTransfer .granting (.oneBuffer 100) ⟨0, 0⟩ 100 10 50 := by
  intro exact
  obtain ⟨m', run, bytes⟩ := exact.write
    { vram := fun _ _ => 0, host := fun _ => 1, hostSize := 50 } rfl
  have last := bytes 59 (by decide)
  have left : m' = _ := (congrArg Prod.snd run).symm
  rw [if_pos (by decide), Heap.flatByte, left] at last
  revert last
  decide +kernel

end RadeonsiCompute
