import RadeonsiCompute.Buffer.Code

/-!
# Splitting a request into fragments

`compute_alloc_fragmented_buffer` asks the driver for one object for each
64 MiB of the request, the last one smaller. `computeAllocFragmentedBuffer_spec`
gives the two outcomes for every request that fits in a 32-bit number of
fragments: all fragments were created and the array describes them, or the
driver refused one and the objects created before it are left behind.
-/

namespace RadeonsiCompute

open Lib

/-- Number of fragments of a request. -/
def fragmentCount (wholeSize : Nat) : Nat := (wholeSize + fragmentSize - 1) / fragmentSize

/-- Bytes of fragment `j` of a request. -/
def fragmentBytes (wholeSize j : Nat) : Nat := min fragmentSize (wholeSize - j * fragmentSize)

/-- The `drm_radeon_gem_create` arguments for fragment `j`. -/
def createArgs (wholeSize domain alignment j : Nat) : GemCreate :=
  { size := fragmentBytes wholeSize j, alignment, initialDomain := domain }

/-- What the array holds for fragment `j` before it has an address. -/
def fragment (ctx : Addr) (wholeSize domain alignment handle j : Nat) : GpuBuffer :=
  { ctx, alignment, handle, domain, flags := 0, size := fragmentBytes wholeSize j, va := 0,
    vaSize := vaSizeOf (fragmentBytes wholeSize j),
    fragmentNumber := if j = 0 then fragmentCount wholeSize else 0 }

theorem fragment_fragmentNumber (ctx wholeSize domain alignment handle j : Nat) :
    (fragment ctx wholeSize domain alignment handle j).fragmentNumber =
      if j = 0 then fragmentCount wholeSize else 0 := by
  simp only [fragment]

theorem fragment_vaSize (ctx wholeSize domain alignment handle j : Nat) :
    (fragment ctx wholeSize domain alignment handle j).vaSize =
      vaSizeOf (fragmentBytes wholeSize j) := by
  simp only [fragment]

/-- Requests whose fragments a 32-bit index can count. -/
def RequestOk (wholeSize : Nat) : Prop := 0 < wholeSize ∧ fragmentCount wholeSize < indexRange

instance (wholeSize : Nat) : Decidable (RequestOk wholeSize) :=
  inferInstanceAs (Decidable (_ ∧ _))

/-! ## Sizes -/

section Sizes

variable {wholeSize j : Nat}

/-- Requests of up to a terabyte do. -/
theorem requestOk_of_le {size : Nat} (positive : 0 < size) (small : size ≤ 2 ^ 40) :
    RequestOk size := by
  refine ⟨positive, ?_⟩
  rw [indexRange_eq, fragmentCount, fragmentSize_eq]
  omega

theorem fragmentSize_pos : 0 < fragmentSize := by
  rw [fragmentSize_eq]
  decide

theorem fragmentSize_lt : fragmentSize < 2 ^ 27 := by
  rw [fragmentSize_eq]
  decide

theorem fragmentCount_pos (positive : 0 < wholeSize) : 0 < fragmentCount wholeSize := by
  unfold fragmentCount fragmentSize
  omega

/-- Fragment `j` exists exactly when it starts before the end of the request. -/
theorem lt_fragmentCount : j < fragmentCount wholeSize ↔ j * fragmentSize < wholeSize := by
  unfold fragmentCount fragmentSize
  omega

theorem wholeSize_lt (ok : RequestOk wholeSize) : wholeSize < 2 ^ 58 := by
  have := ok.2
  rw [indexRange_eq] at this
  unfold fragmentCount fragmentSize at this
  omega

theorem fragmentBytes_pos (h : j < fragmentCount wholeSize) : 0 < fragmentBytes wholeSize j := by
  have := lt_fragmentCount.mp h
  unfold fragmentBytes fragmentSize at *
  omega

theorem fragmentBytes_le : fragmentBytes wholeSize j ≤ fragmentSize := by
  unfold fragmentBytes
  exact Nat.min_le_left _ _

/-- Every fragment but the last is full. -/
theorem fragmentBytes_of_lt (h : j + 1 < fragmentCount wholeSize) :
    fragmentBytes wholeSize j = fragmentSize := by
  have := lt_fragmentCount.mp h
  unfold fragmentBytes fragmentSize at *
  omega

/-- A byte of the request lies in the fragment its offset selects. -/
theorem mod_lt_fragmentBytes {o : Nat} (inside : o < wholeSize) :
    o / fragmentSize < fragmentCount wholeSize ∧
      o % fragmentSize < fragmentBytes wholeSize (o / fragmentSize) := by
  have split := Nat.div_add_mod o fragmentSize
  have small := Nat.mod_lt o fragmentSize_pos
  rw [Nat.mul_comm] at split
  refine ⟨lt_fragmentCount.mpr (by omega), ?_⟩
  unfold fragmentBytes
  exact Nat.lt_min.mpr ⟨small, by omega⟩

/-- A fragment that reaches past an offset holds it inside the request. -/
theorem lt_of_mod_lt_fragmentBytes {o : Nat}
    (reached : o % fragmentSize < fragmentBytes wholeSize (o / fragmentSize)) : o < wholeSize := by
  have split := Nat.div_add_mod o fragmentSize
  have within : fragmentBytes wholeSize (o / fragmentSize) ≤
      wholeSize - o / fragmentSize * fragmentSize := Nat.min_le_right _ _
  rw [Nat.mul_comm] at split
  omega

/-- Fragment `j` covers the bytes from `j` full fragments to at most one more. -/
theorem add_fragmentBytes :
    min wholeSize (j * fragmentSize) + fragmentBytes wholeSize j =
      min wholeSize ((j + 1) * fragmentSize) := by
  unfold fragmentBytes fragmentSize
  omega

/-- The int-typed page rounding loses nothing on a fragment. -/
theorem vaSizeOf_eq {size : Nat} (h : size ≤ fragmentSize) :
    vaSizeOf size = (size + 4095) / 4096 * 4096 := by
  unfold fragmentSize at h
  have pages : (size + 4095) / 4096 ≤ 16384 := by omega
  have sum : add64 size 4095 = size + 4095 := add64_of_lt (by omega)
  have narrow : toInt32 ((size + 4095) / 4096 : Nat) = ((size + 4095) / 4096 : Nat) :=
    toInt32_of_mem (by omega) (by omega)
  have product : toInt32 (((size + 4095) / 4096 : Nat) * 4096) =
      (((size + 4095) / 4096 * 4096 : Nat) : Int) := by
    rw [toInt32_of_mem (by omega) (by omega)]
    omega
  rw [vaSizeOf, sum, narrow, product, toU64_natCast (by omega)]

theorem vaSizeOf_page {size : Nat} (h : size ≤ fragmentSize) : 4096 ∣ vaSizeOf size := by
  rw [vaSizeOf_eq h]
  exact Nat.dvd_mul_left _ _

theorem le_vaSizeOf {size : Nat} (h : size ≤ fragmentSize) : size ≤ vaSizeOf size := by
  rw [vaSizeOf_eq h]
  omega

theorem vaSizeOf_fragmentSize : vaSizeOf fragmentSize = fragmentSize := by
  rw [vaSizeOf_eq (Nat.le_refl _), fragmentSize_eq]

theorem vaSizeOf_pos {size : Nat} (positive : 0 < size) (h : size ≤ fragmentSize) :
    0 < vaSizeOf size := Nat.lt_of_lt_of_le positive (le_vaSizeOf h)

/-- The last fragment holds what the full ones leave. -/
theorem add_fragmentBytes_last (positive : 0 < wholeSize) :
    (fragmentCount wholeSize - 1) * fragmentSize +
      fragmentBytes wholeSize (fragmentCount wholeSize - 1) = wholeSize := by
  have count := fragmentCount_pos positive
  have inside : fragmentCount wholeSize - 1 < fragmentCount wholeSize := by omega
  have start := lt_fragmentCount.mp inside
  have stop : ¬ fragmentCount wholeSize < fragmentCount wholeSize := by omega
  have finish := mt lt_fragmentCount.mpr stop
  have split : fragmentCount wholeSize * fragmentSize =
      (fragmentCount wholeSize - 1) * fragmentSize + fragmentSize := by
    rw [← Nat.succ_mul]
    congr 1
    omega
  rw [fragmentBytes, Nat.min_eq_right (by omega)]
  omega

/-- The sizes of the VA ranges of a request. -/
def rangeSizes (wholeSize : Nat) : List Nat :=
  (List.range' 0 (fragmentCount wholeSize)).map fun j => vaSizeOf (fragmentBytes wholeSize j)

@[simp] theorem rangeSizes_length (wholeSize : Nat) :
    (rangeSizes wholeSize).length = fragmentCount wholeSize := by
  simp [rangeSizes]

theorem rangeSizes_getElem (h : j < fragmentCount wholeSize) :
    (rangeSizes wholeSize)[j]? = some (vaSizeOf (fragmentBytes wholeSize j)) := by
  rw [rangeSizes, List.getElem?_map, List.getElem?_range' h]
  simp

/-- A request of one fragment has one range. -/
theorem rangeSizes_single {ctx domain alignment handle : Nat}
    (single : (fragment ctx wholeSize domain alignment handle 0).fragmentNumber = 1) :
    rangeSizes wholeSize = [(fragment ctx wholeSize domain alignment handle 0).vaSize] := by
  rw [fragment_fragmentNumber, if_pos rfl] at single
  rw [rangeSizes, single, fragment_vaSize]
  simp

/-- Fragment `j` is preceded by `j` full ones. -/
theorem rangeSizes_take_sum (h : j < fragmentCount wholeSize) :
    ((rangeSizes wholeSize).take j).sum = j * fragmentSize := by
  induction j with
  | zero => simp
  | succ j ih =>
      have full : (rangeSizes wholeSize)[j]? = some fragmentSize := by
        rw [rangeSizes_getElem (by omega), fragmentBytes_of_lt h, vaSizeOf_fragmentSize]
      rw [List.take_add_one, full, List.sum_append, ih (by omega)]
      simp [Nat.succ_mul]

/-- A request takes up its size, rounded up to pages. -/
theorem rangeSizes_sum (positive : 0 < wholeSize) :
    (rangeSizes wholeSize).sum = (wholeSize + 4095) / 4096 * 4096 := by
  have last := @add_fragmentBytes_last wholeSize positive
  have count := fragmentCount_pos positive
  have inside : fragmentCount wholeSize - 1 < fragmentCount wholeSize := by omega
  have split : rangeSizes wholeSize = (rangeSizes wholeSize).take (fragmentCount wholeSize - 1) ++
      [vaSizeOf (fragmentBytes wholeSize (fragmentCount wholeSize - 1))] := by
    have all : (rangeSizes wholeSize).take (fragmentCount wholeSize - 1 + 1) =
        rangeSizes wholeSize := by
      rw [List.take_of_length_le]
      rw [rangeSizes_length]
      omega
    rw [List.take_add_one, rangeSizes_getElem inside] at all
    exact all.symm
  rw [split, List.sum_append, rangeSizes_take_sum inside, List.sum_singleton,
    vaSizeOf_eq fragmentBytes_le]
  rw [fragmentSize_eq] at last ⊢
  generalize fragmentBytes wholeSize (fragmentCount wholeSize - 1) = bytes at last ⊢
  omega

end Sizes

/-- The array `bo` describes a buffer of `total` bytes: full fragments and a
rest, each an object of its own. -/
structure Fragmented (h : Heap) (bo : BufPtr) (total : Nat) : Prop where
  request : RequestOk total
  number : (h.buffer bo).fragmentNumber = fragmentCount total
  valid : ∀ j < fragmentCount total, h.ValidBuffer (bo.add j)
  ctxLive : ∀ j < fragmentCount total, (h.buffer (bo.add j)).ctx ∈ h.contexts.live
  size : ∀ j < fragmentCount total, (h.buffer (bo.add j)).size = fragmentBytes total j
  handles : ∀ i < fragmentCount total, ∀ j < fragmentCount total,
    (h.buffer (bo.add i)).handle = (h.buffer (bo.add j)).handle → i = j

/-- A heap that holds a buffer of `total` bytes, from address 4096 on, and nothing else. -/
def Heap.oneBuffer (total : Nat) : Heap where
  nodes := { cell := fun _ => ⟨⟨0, 0, ⟨0, 0⟩, ⟨0, 0⟩⟩, none, none⟩, live := ∅ }
  buffers :=
    { cell := fun _ =>
        { count := fragmentCount total
          elem := fun i => { fragment 0 total 2 4096 i i with va := 4096 + i * fragmentSize } }
      live := {0} }
  contexts := { cell := fun _ => ⟨3, 0⟩, live := {0} }

theorem Fragmented.oneBuffer {total : Nat} (request : RequestOk total) :
    Fragmented (.oneBuffer total) ⟨0, 0⟩ total := by
  have buffer : ∀ i, (Heap.oneBuffer total).buffer ((BufPtr.mk 0 0).add i) =
      { fragment 0 total 2 4096 i i with va := 4096 + i * fragmentSize } := fun i => by
    simp only [Heap.buffer, Heap.oneBuffer, BufPtr.add_index, Nat.zero_add]
  constructor
  · exact request
  · have first := buffer 0
    rw [BufPtr.add_zero] at first
    rw [first]
    exact (fragment_fragmentNumber 0 total 2 4096 0 0).trans (if_pos rfl)
  · intro j hj
    simpa [Heap.ValidBuffer, Heap.oneBuffer] using hj
  · intro j _
    rw [buffer]
    simp [fragment, Heap.oneBuffer]
  · intro j _
    rw [buffer]
    simp only [fragment]
  · intro i _ j _ same
    rw [buffer, buffer] at same
    simpa only [fragment] using same

theorem Heap.oneBuffer_va (total : Nat) : ((Heap.oneBuffer total).buffer ⟨0, 0⟩).va = 4096 := by
  simp only [Heap.buffer, Heap.oneBuffer, Nat.zero_mul, Nat.add_zero]

/-! ## The loop -/

/-- The driver, in state `k`, created one object for each argument in turn. -/
inductive Creates {κ : Type} (drm : Drm κ) (fd : Nat) :
    κ → List GemCreate → List Nat → κ → Prop
  | nil {k} : Creates drm fd k [] [] k
  | cons {k k₁ k₂ args handle rest handles} : drm.gemCreate fd args k = (some handle, k₁) →
      Creates drm fd k₁ rest handles k₂ →
      Creates drm fd k (args :: rest) (handle :: handles) k₂

/-- Heap `h'` is `h` with elements `i`, `i + 1`, ... of `buf` describing
fragments with the given handles. -/
structure Filled (ctx : Addr) (wholeSize domain alignment : Nat) (h h' : Heap) (buf : BufPtr)
    (i : Nat) (handles : List Nat) : Prop where
  nodes : h'.nodes = h.nodes
  contexts : h'.contexts = h.contexts
  buffersLive : h'.buffers.live = h.buffers.live
  count : ∀ a, (h'.buffers.cell a).count = (h.buffers.cell a).count
  filled : ∀ j (_ : j < handles.length),
    h'.buffer (buf.add (i + j)) = fragment ctx wholeSize domain alignment handles[j] (i + j)
  other : ∀ p, (∀ j < handles.length, p ≠ buf.add (i + j)) → h'.buffer p = h.buffer p

section Loop

variable {κ : Type} (drm : Drm κ) {ctx : Addr} {fd wholeSize domain alignment : Nat}
  {buf : BufPtr}

theorem Filled.refl (h : Heap) (i : Nat) :
    Filled ctx wholeSize domain alignment h h buf i [] := by
  constructor <;> simp

/-- Writing element `i` and then the later ones. -/
theorem Filled.cons {h h' : Heap} {i handle : Nat} {handles : List Nat}
    (rest : Filled ctx wholeSize domain alignment
      (h.setBuffer (buf.add i) (fragment ctx wholeSize domain alignment handle i)) h' buf (i + 1)
      handles) :
    Filled ctx wholeSize domain alignment h h' buf i (handle :: handles) := by
  constructor
  · exact rest.nodes
  · exact rest.contexts
  · exact rest.buffersLive
  · intro a
    rw [rest.count, Heap.setBuffer_count]
  · intro j hj
    cases j with
    | zero =>
        rw [rest.other, Heap.buffer_setBuffer, if_pos (by simp)]
        · rfl
        · intro j _ same
          have := BufPtr.add_inj.mp same
          omega
    | succ j =>
        have := rest.filled j (by simpa using hj)
        rw [show i + (j + 1) = i + 1 + j by omega]
        simpa using this
  · intro p notWritten
    rw [rest.other, Heap.buffer_setBuffer, if_neg]
    · simpa using notWritten 0 (by simp)
    · intro j hj
      have := notWritten (j + 1) (by simpa using hj)
      rwa [show i + (j + 1) = i + 1 + j by omega] at this

/-- A round before the last takes a full fragment, the last one what is left. -/
theorem fragmentLoop_size (ok : RequestOk wholeSize) {i : Nat}
    (go : i < fragmentCount wholeSize) :
    (if add64 (i * fragmentSize) fragmentSize ≤ wholeSize then fragmentSize
      else sub64 wholeSize (i * fragmentSize)) = fragmentBytes wholeSize i := by
  have whole := wholeSize_lt ok
  have start : i * fragmentSize < wholeSize := lt_fragmentCount.mp go
  have sum : add64 (i * fragmentSize) fragmentSize = i * fragmentSize + fragmentSize :=
    add64_of_lt (by have := fragmentSize_lt; omega)
  have rest : sub64 wholeSize (i * fragmentSize) = wholeSize - i * fragmentSize :=
    sub64_of_le (by omega) (by omega)
  rw [sum, rest, fragmentBytes]
  split
  · exact (Nat.min_eq_left (by omega)).symm
  · exact (Nat.min_eq_right (by omega)).symm

/-- A refused fragment ends the loop with `NULL`. -/
theorem fragmentLoop_refused (ok : RequestOk wholeSize) {i fuel : Nat} {w : World κ} {kernel : κ}
    (go : i < fragmentCount wholeSize)
    (create : drm.gemCreate fd (createArgs wholeSize domain alignment i) w.kernel =
      (none, kernel)) :
    fragmentLoop drm fd ctx wholeSize domain alignment (fragmentCount wholeSize) buf (fuel + 1) i
      (min wholeSize (i * fragmentSize)) w = .ok (none, { w with kernel }) := by
  have start : i * fragmentSize < wholeSize := lt_fragmentCount.mp go
  have cursor : min wholeSize (i * fragmentSize) = i * fragmentSize := by omega
  unfold createArgs at create
  simp only [cursor, fragmentLoop, if_pos go, fragmentLoop_size ok go, create]

/-- A created fragment is described by element `i`, and both counters move on. -/
theorem fragmentLoop_created (ok : RequestOk wholeSize) {i fuel handle : Nat} {w : World κ}
    {kernel : κ} (go : i < fragmentCount wholeSize) (valid : w.heap.ValidBuffer (buf.add i))
    (zero : w.heap.buffer (buf.add i) = .zero)
    (create : drm.gemCreate fd (createArgs wholeSize domain alignment i) w.kernel =
      (some handle, kernel)) :
    fragmentLoop drm fd ctx wholeSize domain alignment (fragmentCount wholeSize) buf (fuel + 1) i
        (min wholeSize (i * fragmentSize)) w =
      fragmentLoop drm fd ctx wholeSize domain alignment (fragmentCount wholeSize) buf fuel (i + 1)
        (min wholeSize ((i + 1) * fragmentSize))
        ⟨w.heap.setBuffer (buf.add i) (fragment ctx wholeSize domain alignment handle i),
          kernel⟩ := by
  have whole := wholeSize_lt ok
  have small := ok.2
  have start : i * fragmentSize < wholeSize := lt_fragmentCount.mp go
  have cursor : min wholeSize (i * fragmentSize) = i * fragmentSize := by omega
  have written : (w.heap.modifyBuffer (buf.add i) fun b =>
      { b with
        fragmentNumber := if i = 0 then fragmentCount wholeSize % indexRange else 0
        ctx, alignment, handle, domain, flags := 0, size := fragmentBytes wholeSize i
        vaSize := vaSizeOf (fragmentBytes wholeSize i) }) =
      .ok (w.heap.setBuffer (buf.add i)
        (fragment ctx wholeSize domain alignment handle i)) := by
    rw [Heap.modifyBuffer_eq valid, zero, Nat.mod_eq_of_lt small]
    rfl
  have index : (i + 1) % indexRange = i + 1 := Nat.mod_eq_of_lt (by omega)
  have next : add64 (i * fragmentSize) (fragmentBytes wholeSize i) =
      min wholeSize ((i + 1) * fragmentSize) := by
    rw [← add_fragmentBytes, cursor]
    have := @fragmentBytes_le wholeSize i
    have := fragmentSize_lt
    exact add64_of_lt (by omega)
  unfold createArgs at create
  simp only [cursor, fragmentLoop, if_pos go, fragmentLoop_size ok go, create, written, ok_bind,
    index, next]

/-- From index `i` on, with `k` fragments to go, the loop either creates them
all or stops at the first refusal. -/
theorem fragmentLoop_spec (ok : RequestOk wholeSize) (k : Nat) :
    ∀ (i fuel : Nat) (w : World κ), i + k = fragmentCount wholeSize → k < fuel →
      (∀ j < k, w.heap.ValidBuffer (buf.add (i + j)) ∧
        w.heap.buffer (buf.add (i + j)) = .zero) →
      ∃ result handles w', fragmentLoop drm fd ctx wholeSize domain alignment
          (fragmentCount wholeSize) buf fuel i (min wholeSize (i * fragmentSize)) w =
            .ok (result, w') ∧
        Filled ctx wholeSize domain alignment w.heap w'.heap buf i handles ∧
        ((result = some wholeSize ∧ handles.length = k ∧
            Creates drm fd w.kernel
              ((List.range' i k).map (createArgs wholeSize domain alignment)) handles w'.kernel) ∨
          (result = none ∧ handles.length < k ∧ ∃ kernel,
            Creates drm fd w.kernel
              ((List.range' i handles.length).map (createArgs wholeSize domain alignment))
              handles kernel ∧
            drm.gemCreate fd (createArgs wholeSize domain alignment (i + handles.length)) kernel =
              (none, w'.kernel))) := by
  have whole := wholeSize_lt ok
  induction k with
  | zero =>
      intro i fuel w total enough _
      obtain ⟨fuel, rfl⟩ : ∃ f, fuel = f + 1 := ⟨fuel - 1, by omega⟩
      have stop : ¬ i < fragmentCount wholeSize := by omega
      have all : min wholeSize (i * fragmentSize) = wholeSize := by
        have := mt lt_fragmentCount.mpr stop
        omega
      refine ⟨some wholeSize, [], w, ?_, Filled.refl _ _, .inl ⟨rfl, rfl, .nil⟩⟩
      rw [fragmentLoop, if_neg stop, all]
  | succ k ih =>
      intro i fuel w total enough fresh
      obtain ⟨fuel, rfl⟩ : ∃ f, fuel = f + 1 := ⟨fuel - 1, by omega⟩
      have go : i < fragmentCount wholeSize := by omega
      obtain ⟨valid, zero⟩ : w.heap.ValidBuffer (buf.add i) ∧
          w.heap.buffer (buf.add i) = .zero := by
        simpa using fresh 0 (by omega)
      cases create : drm.gemCreate fd (createArgs wholeSize domain alignment i) w.kernel with
      | mk reply kernel =>
          cases reply with
          | none =>
              -- the loop returns `NULL`, and what it created before stays
              refine ⟨none, [], { w with kernel }, fragmentLoop_refused drm ok go create,
                Filled.refl _ _, .inr ⟨rfl, by simp, w.kernel, .nil, ?_⟩⟩
              exact create
          | some handle =>
              rw [fragmentLoop_created drm ok go valid zero create]
              -- the fragments after `i` are still zero: `i` was the only one written
              obtain ⟨result, handles, w', run, filled, outcome⟩ :=
                ih (i + 1) fuel
                  ⟨w.heap.setBuffer (buf.add i)
                    (fragment ctx wholeSize domain alignment handle i), kernel⟩
                  (by omega) (by omega) (by
                    intro j hj
                    obtain ⟨validJ, zeroJ⟩ := fresh (j + 1) (by omega)
                    rw [show i + (j + 1) = i + 1 + j by omega] at validJ zeroJ
                    refine ⟨Heap.validBuffer_setBuffer.mpr validJ, ?_⟩
                    rw [Heap.buffer_setBuffer, if_neg, zeroJ]
                    intro same
                    have := BufPtr.add_inj.mp same
                    omega)
              refine ⟨result, handle :: handles, w', run, filled.cons, ?_⟩
              rcases outcome with ⟨all, count, created⟩ | ⟨refused, count, k', created, refusal⟩
              · refine .inl ⟨all, by simp [count], ?_⟩
                rw [List.range'_succ, List.map_cons]
                exact .cons create created
              · refine .inr ⟨refused, by simpa using count, k', ?_, ?_⟩
                · rw [List.length_cons, List.range'_succ, List.map_cons]
                  exact .cons create created
                · rw [List.length_cons, show i + (handles.length + 1) = i + 1 + handles.length by omega]
                  exact refusal

/-- Heap `h'` is `h` with a new array `bo` whose first elements describe
fragments with the given handles. -/
structure NewBuffer (ctx : Addr) (wholeSize domain alignment : Nat) (h h' : Heap) (bo : BufPtr)
    (handles : List Nat) : Prop where
  index : bo.index = 0
  fresh : bo.block ∉ h.buffers.live
  nodes : h'.nodes = h.nodes
  contexts : h'.contexts = h.contexts
  buffersLive : h'.buffers.live = insert bo.block h.buffers.live
  count : (h'.buffers.cell bo.block).count = fragmentCount wholeSize
  fragment : ∀ j (_ : j < handles.length),
    h'.buffer (bo.add j) = fragment ctx wholeSize domain alignment handles[j] j
  otherCount : ∀ a, a ≠ bo.block → (h'.buffers.cell a).count = (h.buffers.cell a).count
  other : ∀ p : BufPtr, p.block ≠ bo.block → h'.buffer p = h.buffer p

/-- A `calloc`ed array that the loop has filled from its start. -/
theorem NewBuffer.of_filled {h h' : Heap} {a : Addr} {handles : List Nat}
    (fresh : a ∉ h.buffers.live)
    (filled : Filled ctx wholeSize domain alignment (h.withArray a (fragmentCount wholeSize)) h'
      ⟨a, 0⟩ 0 handles) :
    NewBuffer ctx wholeSize domain alignment h h' ⟨a, 0⟩ handles := by
  have cells := h.withArray_cell a (fragmentCount wholeSize)
  refine ⟨rfl, fresh, filled.nodes, filled.contexts, filled.buffersLive, ?_, ?_, ?_, ?_⟩
  · rw [filled.count, cells, if_pos rfl]
  · intro j hj
    simpa using filled.filled j hj
  · intro b other
    rw [filled.count, cells, if_neg other]
  · intro p other
    rw [filled.other p, Heap.buffer, cells, if_neg other]
    · rfl
    · rintro j _ rfl
      exact other rfl

/-- **Outcomes of `compute_alloc_fragmented_buffer`.** It returns the new array
with every fragment created, or `NULL` after the driver refused a fragment. -/
theorem computeAllocFragmentedBuffer_spec (libc : Libc) {w : World κ} {alignment : Int}
    (ok : RequestOk wholeSize) (ctxLive : ctx ∈ w.heap.contexts.live) :
    ∃ result handles w',
      computeAllocFragmentedBuffer drm libc w ctx wholeSize domain alignment = .ok (result, w') ∧
      NewBuffer ctx wholeSize domain (toU64 alignment) w.heap w'.heap
        ⟨libc.buffer.choose w.heap.buffers.live, 0⟩ handles ∧
      ((result = some ⟨libc.buffer.choose w.heap.buffers.live, 0⟩ ∧
          handles.length = fragmentCount wholeSize ∧
          Creates drm (w.heap.contexts.cell ctx).fd w.kernel
            ((List.range' 0 (fragmentCount wholeSize)).map
              (createArgs wholeSize domain (toU64 alignment))) handles w'.kernel) ∨
        (result = none ∧ handles.length < fragmentCount wholeSize ∧ ∃ kernel,
          Creates drm (w.heap.contexts.cell ctx).fd w.kernel
            ((List.range' 0 handles.length).map
              (createArgs wholeSize domain (toU64 alignment))) handles kernel ∧
          drm.gemCreate (w.heap.contexts.cell ctx).fd
              (createArgs wholeSize domain (toU64 alignment) handles.length) kernel =
            (none, w'.kernel))) := by
  have whole := wholeSize_lt ok
  have small := ok.2
  have num : sub64 (add64 wholeSize fragmentSize) 1 / fragmentSize = fragmentCount wholeSize := by
    have := fragmentSize_lt
    have positive := fragmentSize_pos
    have sum : add64 wholeSize fragmentSize = wholeSize + fragmentSize := add64_of_lt (by omega)
    rw [sum, sub64_of_le (by omega) (by omega)]
    rfl
  have fresh := libc.buffer.fresh w.heap.buffers.live
  rw [computeAllocFragmentedBuffer, num, Heap.callocBuffers_eq, ok_bind]
  dsimp only
  rw [Store.load_eq (by exact ctxLive), ok_bind]
  generalize libc.buffer.choose w.heap.buffers.live = a at fresh ⊢
  have elements : ∀ j < fragmentCount wholeSize,
      (w.heap.withArray a (fragmentCount wholeSize)).ValidBuffer ((BufPtr.mk a 0).add (0 + j)) ∧
        (w.heap.withArray a (fragmentCount wholeSize)).buffer ((BufPtr.mk a 0).add (0 + j)) =
          .zero := by
    intro j hj
    simp [Heap.ValidBuffer, Heap.buffer, Heap.withArray, hj]
  -- fewer fragments than values of the index, so the loop ends
  obtain ⟨result, handles, w', run, filled, outcome⟩ :=
    fragmentLoop_spec drm ok (fragmentCount wholeSize) 0 indexRange
      ⟨w.heap.withArray a (fragmentCount wholeSize), w.kernel⟩ (by omega) small elements
  have start : min wholeSize (0 * fragmentSize) = 0 := by simp
  rw [start] at run
  refine ⟨result.map fun _ => ⟨a, 0⟩, handles, w', ?_, .of_filled fresh filled, ?_⟩
  · have loaded : (w.heap.withArray a (fragmentCount wholeSize)).contexts.cell ctx =
      w.heap.contexts.cell ctx := rfl
    rw [loaded, run, ok_bind]
    rcases outcome with ⟨rfl, -, -⟩ | ⟨rfl, -, -⟩ <;> simp
  · rcases outcome with ⟨rfl, count, created⟩ | ⟨rfl, count, kernel, created, refusal⟩
    · exact .inl ⟨rfl, count, created⟩
    · refine .inr ⟨rfl, count, kernel, created, ?_⟩
      simpa using refusal

/-! ## Requests that never return -/

/-- With 2^32 fragments or more the index comes back to zero for ever, unless
the driver refuses a fragment. -/
theorem fragmentLoop_none {fragmentNum : Nat} (many : indexRange ≤ fragmentNum) (fuel : Nat) :
    ∀ (i sizeAlloced : Nat) (w : World κ) (result : Option Nat) (w' : World κ), i < indexRange →
      fragmentLoop drm fd ctx wholeSize domain alignment fragmentNum buf fuel i sizeAlloced w =
        .ok (result, w') →
      result = none ∧ ∃ args k k', drm.gemCreate fd args k = (none, k') := by
  induction fuel with
  | zero =>
      intro i sizeAlloced w result w' _ returned
      exact absurd returned (by simp [fragmentLoop])
  | succ fuel ih =>
      intro i sizeAlloced w result w' small returned
      rw [fragmentLoop, if_pos (by omega)] at returned
      generalize (if add64 sizeAlloced fragmentSize ≤ wholeSize then fragmentSize
        else sub64 wholeSize sizeAlloced) = size at returned
      cases reply : drm.gemCreate fd { size, alignment, initialDomain := domain } w.kernel with
      | mk handle kernel =>
          cases handle with
          | none =>
              simp only [reply] at returned
              obtain ⟨rfl, -⟩ := Prod.mk.inj (Except.ok.inj returned)
              exact ⟨rfl, _, _, _, reply⟩
          | some handle =>
              simp only [reply] at returned
              obtain ⟨heap, -, rest⟩ := bind_eq_ok.mp returned
              exact ih _ _ _ result w' (Nat.mod_lt _ (by omega)) rest

/-- A request that is answered with an array has fewer than 2^32 fragments; a
`NULL` means that the driver refused one. -/
theorem requestOk_of_answer (libc : Libc) {w : World κ} {alignment : Int}
    {result : Option BufPtr} {w' : World κ} (positive : 0 < wholeSize) (word : wholeSize < 2 ^ 64)
    (returned : computeAllocFragmentedBuffer drm libc w ctx wholeSize domain alignment =
      .ok (result, w')) :
    RequestOk wholeSize ∨ result = none ∧ ∃ fd args k k', drm.gemCreate fd args k = (none, k') := by
  by_cases many : fragmentCount wholeSize < indexRange
  · exact .inl ⟨positive, many⟩
  refine .inr ?_
  rw [computeAllocFragmentedBuffer, Heap.callocBuffers_eq, ok_bind] at returned
  obtain ⟨c, -, returned⟩ := bind_eq_ok.mp returned
  obtain ⟨⟨alloced, w₁⟩, loop, final⟩ := bind_eq_ok.mp returned
  have start : 0 < indexRange := by rw [indexRange_eq]; decide
  have refused : alloced = none → (∃ args k k', drm.gemCreate c.fd args k = (none, k')) →
      result = none ∧ ∃ fd args k k', drm.gemCreate fd args k = (none, k') := by
    rintro rfl ⟨args, k, k', refusal⟩
    obtain ⟨rfl, -⟩ := Prod.mk.inj (Except.ok.inj final)
    exact ⟨rfl, c.fd, args, k, k', refusal⟩
  -- the sum in the fragment count wraps for the last 64 MiB of sizes
  by_cases fits : wholeSize + fragmentSize < 2 ^ 64
  · have count : indexRange ≤ sub64 (add64 wholeSize fragmentSize) 1 / fragmentSize := by
      have positive := fragmentSize_pos
      rw [add64_of_lt fits, sub64_of_le (by omega) (by omega)]
      exact Nat.le_of_not_lt many
    obtain ⟨none, refusal⟩ := fragmentLoop_none drm count indexRange 0 0 _ _ _ start loop
    exact refused none refusal
  · have small := fragmentSize_lt
    have sum : add64 wholeSize fragmentSize = wholeSize + fragmentSize - 2 ^ 64 := by
      unfold add64
      omega
    by_cases zero : wholeSize + fragmentSize = 2 ^ 64
    · have count : indexRange ≤ sub64 (add64 wholeSize fragmentSize) 1 / fragmentSize := by
        rw [sum, zero, sub64_of_lt (by decide) (by decide), fragmentSize_eq, indexRange_eq]
        decide
      obtain ⟨none, refusal⟩ := fragmentLoop_none drm count indexRange 0 0 _ _ _ start loop
      exact refused none refusal
    · -- no fragment at all: the closing assertion fails
      have none : sub64 (add64 wholeSize fragmentSize) 1 / fragmentSize = 0 := by
        rw [sum, sub64_of_le (by omega) (by omega)]
        exact Nat.div_eq_of_lt (by omega)
      obtain ⟨fuel, enough⟩ : ∃ fuel, indexRange = fuel + 1 := ⟨indexRange - 1, by omega⟩
      rw [none, enough, fragmentLoop, if_neg (by omega)] at loop
      obtain ⟨rfl, rfl⟩ : some 0 = alloced ∧ _ = w₁ := by simpa using loop
      simp only [if_neg (show ¬ wholeSize = 0 by omega)] at final
      exact absurd final (by simp)

/-- A request that a granting driver answers has fewer than 2^32 fragments. -/
theorem requestOk_of_returned (creates : ∀ fd args k, (drm.gemCreate fd args k).1 ≠ none)
    (libc : Libc) {w : World κ} {alignment : Int} {r : Option BufPtr × World κ}
    (positive : 0 < wholeSize) (word : wholeSize < 2 ^ 64)
    (returned : computeAllocFragmentedBuffer drm libc w ctx wholeSize domain alignment = .ok r) :
    RequestOk wholeSize := by
  obtain ⟨result, w'⟩ := r
  rcases requestOk_of_answer drm libc positive word returned with ok | ⟨-, fd, args, k, k', refusal⟩
  · exact ok
  · exact absurd (congrArg Prod.fst refusal) (creates fd args k)

end Loop

end RadeonsiCompute
