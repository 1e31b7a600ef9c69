import RadeonsiCompute.Bytes.Transfers

/-!
# The buffers of a caller are arrays

Every run of the library's calls is a run of the memory of named arrays: each
buffer held is an array of exactly its size, a transfer reads or writes the part
it names, a copy on the device is a copy between the parts, and nothing else
ever changes a byte of a buffer. The invariant puts together what the pool, the
driver and the rings keep.
-/

namespace RadeonsiCompute

open Lib

variable {κ κ' : Type} {p : Platform κ κ'} {ctx : Addr}

/-! ## Bytes of a buffer -/

section Contents

variable {h h' : Heap} {vram vram' : Nat → Nat → Byte} {b : BufPtr} {total : Nat}

theorem Sized.totalSize (sized : Sized h b total) : h.totalSize b = total :=
  sized.fragmented.totalSize

/-- A buffer whose array is as it was holds what it held if its objects do. -/
theorem Heap.contents_congr (sized : Sized h b total)
    (same : ∀ p : BufPtr, p.block = b.block → h'.buffer p = h.buffer p)
    (bytes : ∀ j < fragmentCount total,
      vram' (h.buffer (b.add j)).handle = vram (h.buffer (b.add j)).handle) :
    h'.contents vram' b = h.contents vram b := by
  have fragments : ∀ j, h'.buffer (b.add j) = h.buffer (b.add j) :=
    fun j => same _ (BufPtr.add_block b j)
  have size : h'.totalSize b = h.totalSize b := by
    simp only [Heap.totalSize, same b rfl, fragments]
  rw [Heap.contents, Heap.contents, size, sized.totalSize]
  refine List.map_congr_left fun o member => ?_
  have inRange := (mod_lt_fragmentBytes (List.mem_range.mp member)).1
  rw [Heap.flatByte, Heap.flatByte, fragments]
  exact congrFun (bytes _ inRange) _

end Contents

namespace Machine

/-! ## The invariant -/

/-- What every state of a run is: the pool and the driver's mappings in order,
nothing of the descriptor in the rings, and the mapped bytes seen. -/
structure Inv (p : Platform κ κ') (ctx : Addr) (s : Machine κ κ') (rest : List Addr) : Prop where
  placed : s.client.Placed p.view ctx rest
  descriptor : (s.heap.contexts.cell ctx).fd = p.fd
  idle : s.Idle p
  seen : (s.kernel p).Shows s.vram (s.mem p)

variable {s s' : Machine κ κ'} {rest : List Addr}

/-- The mappings as the descriptor has them. -/
theorem Inv.mapped (inv : s.Inv p ctx rest) : s.heap.MappedIn s.client.held (s.kernel p) := by
  have mapped := inv.placed.mapped
  rw [inv.descriptor] at mapped
  exact mapped

theorem Inv.sized (inv : s.Inv p ctx rest) {b : BufPtr} (hb : b ∈ s.client.held) :
    Sized s.heap b (s.heap.totalSize b) := by
  obtain ⟨total, sized⟩ := inv.placed.sized b hb
  rw [sized.totalSize]
  exact sized

/-- The fragment of a byte is one of the fragments held. -/
theorem Inv.fragment (inv : s.Inv p ctx rest) {b : BufPtr} (hb : b ∈ s.client.held) {j : Nat}
    (hj : j < fragmentCount (s.heap.totalSize b)) :
    b.add j ∈ s.heap.fragmentsOf s.client.held := by
  refine ⟨b, hb, j, ?_, rfl⟩
  rw [(inv.sized hb).fragmented.number]
  exact hj

/-- The handle of a fragment held is open. -/
theorem Inv.isOpen (inv : s.Inv p ctx rest) {q : BufPtr}
    (member : q ∈ s.heap.fragmentsOf s.client.held) :
    (s.heap.buffer q).handle ∈ (s.kernel p).handles :=
  p.honest.sound p.fd s.client.world.kernel _ (inv.mapped.mapped q member)

/-- A buffer whose objects are seen in a memory is seen at its address. -/
theorem Inv.contents_at (inv : s.Inv p ctx rest) {vram : Nat → Nat → Byte} {mem : Nat → Byte}
    (seen : (s.kernel p).Shows vram mem) {b : BufPtr} (hb : b ∈ s.client.held) :
    s.heap.contents vram b =
      (List.range (s.heap.totalSize b)).map fun o => mem ((s.heap.buffer b).va + o) := by
  refine List.map_congr_left fun o member => ?_
  have inside := List.mem_range.mp member
  have inRange := (mod_lt_fragmentBytes inside).1
  obtain ⟨address, small⟩ := (inv.sized hb).byte_va inv.placed.legal hb inside
  rw [address]
  exact (seen _ (inv.mapped.mapped _ (inv.fragment hb inRange)) _ small).symm

/-- **The hardware sees a buffer at its address.** -/
theorem Inv.contents_eq (inv : s.Inv p ctx rest) {b : BufPtr} (hb : b ∈ s.client.held) :
    s.heap.contents s.vram b =
      (List.range (s.heap.totalSize b)).map fun o => s.mem p ((s.heap.buffer b).va + o) :=
  inv.contents_at inv.seen hb

theorem Inv.waits_idle (inv : s.Inv p ctx rest) (waits : s.Waits p s') : s'.Idle p :=
  fun job member own => inv.idle job (waits.pending job member own) own

/-- A call on the pool keeps the invariant. -/
theorem Inv.call (inv : s.Inv p ctx rest) {c : Call} (legal : s.client.Legal ctx c)
    (run : s.client.call p.drm ctx c = .ok s'.client) (waits : s.Waits p s') :
    ∃ rest', s'.Inv p ctx rest' := by
  obtain ⟨rest', placed⟩ := inv.placed.call p.view ctx p.honest legal run
  refine ⟨rest', placed, ?_, inv.waits_idle waits, waits.seen⟩
  have contexts := (Client.changed inv.placed.legal.inv legal run).contexts
  show (s'.client.world.heap.contexts.cell ctx).fd = _
  rw [contexts]
  exact inv.descriptor

/-- A step that leaves the pool alone keeps the invariant. -/
theorem Inv.still (inv : s.Inv p ctx rest) (same : s'.client = s.client) (idle : s'.Idle p)
    (seen : (s'.kernel p).Shows s'.vram (s'.mem p)) : s'.Inv p ctx rest where
  placed := by rw [same]; exact inv.placed
  descriptor := by
    have descriptor := inv.descriptor
    unfold heap at descriptor ⊢
    rw [same]
    exact descriptor
  idle := idle
  seen := seen

/-! ## Calls on the pool -/

/-- What a buffer that stays held holds through a call on the pool. -/
theorem Inv.old (inv : s.Inv p ctx rest) {rest' : List Addr} (inv' : s'.Inv p ctx rest')
    (objects : s.KeepsObjects p s') {b : BufPtr} (old : b ∈ s.client.held)
    (stays : b ∈ s'.client.held)
    (same : ∀ q : BufPtr, q.block = b.block → s'.heap.buffer q = s.heap.buffer q) :
    s'.heap.contents s'.vram b = s.heap.contents s.vram b := by
  have sized := inv.sized old
  refine Heap.contents_congr sized same fun j hj => ?_
  have here := inv.fragment old hj
  refine objects _ (inv.isOpen here) ?_
  obtain ⟨there, equal⟩ := @Heap.fragmentsOf_old s.heap s'.heap s.client.held b (b.add j) old j
    (by rw [same b rfl, sized.fragmented.number]; exact hj) rfl same
  rw [← equal]
  refine inv'.isOpen ⟨b, stays, j, ?_, rfl⟩
  rw [same b rfl, sized.fragmented.number]
  exact hj

theorem Inv.alloc (inv : s.Inv p ctx rest) {libc : Libc} {size domain : Nat} {alignment : Int}
    {bo : BufPtr} {world : World κ}
    (legal : s.client.Legal ctx (.alloc libc size domain alignment))
    (run : computeAllocGpuBuffer p.drm libc s.client.world ctx size domain alignment =
      .ok (some bo, world))
    (client : s'.client = { world, held := insert bo s.client.held })
    (objects : s.KeepsObjects p s') (waits : s.Waits p s') :
    (∃ rest', s'.Inv p ctx rest') ∧
      Arrays.Step (s.arrays) (.create bo size) (s'.arrays) := by
  have call : s.client.call p.drm ctx (.alloc libc size domain alignment) = .ok s'.client := by
    simp only [Client.call, run, ok_bind, client]
  obtain ⟨rest', inv'⟩ := inv.call legal call waits
  refine ⟨⟨rest', inv'⟩, ?_⟩
  obtain ⟨ok, answer⟩ := Client.answer inv.placed.legal.inv legal run
  cases answer with
  | buffer alloc created maps =>
      have held : s'.client.held = insert bo s.client.held := by rw [client]
      have heap : s'.heap = world.heap := by rw [Machine.heap, client]
      have opens := (p.honest.keeps _).opened created
      have length : (s'.heap.contents s'.vram bo).length = size := by
        rw [Heap.contents, List.length_map, List.length_range, heap]
        exact (alloc.fragmented ok opens.nodup).totalSize
      have free : s.arrays bo = none := if_neg alloc.new
      have next : s'.arrays =
          Function.update s.arrays bo (some (s'.heap.contents s'.vram bo)) := by
        funext b
        by_cases own : b = bo
        · subst own
          rw [Function.update_self]
          exact if_pos (by rw [held]; exact Finset.mem_insert_self _ _)
        · rw [Function.update_of_ne own]
          unfold arrays
          by_cases old : b ∈ s.client.held
          · have stays : b ∈ s'.client.held := by
              rw [held]
              exact Finset.mem_insert_of_mem old
            have same : ∀ q : BufPtr, q.block = b.block →
                s'.heap.buffer q = s.heap.buffer q := by
              rw [heap]
              exact alloc.others b old
            rw [if_pos old, if_pos stays, inv.old inv' objects old stays same]
          · have still : b ∉ s'.client.held := by
              rw [held, Finset.mem_insert, not_or]
              exact ⟨own, old⟩
            rw [if_neg old, if_neg still]
      have step := Arrays.Step.create (a := s'.heap.contents s'.vram bo) free
      rw [length, ← next] at step
      exact step

/-- A call after which the same buffers are held, or fewer, with the arrays
they had. -/
theorem Inv.kept (inv : s.Inv p ctx rest) {rest' : List Addr} (inv' : s'.Inv p ctx rest')
    (objects : s.KeepsObjects p s') {b : BufPtr} (held : b ∈ s'.client.held ↔ b ∈ s.client.held)
    (same : b ∈ s.client.held → ∀ q : BufPtr, q.block = b.block →
      s'.heap.buffer q = s.heap.buffer q) : s'.arrays b = s.arrays b := by
  unfold arrays
  by_cases old : b ∈ s.client.held
  · have stays := held.mpr old
    rw [if_pos old, if_pos stays, inv.old inv' objects old stays (same old)]
  · rw [if_neg old, if_neg (mt held.mp old)]

theorem Inv.refused (inv : s.Inv p ctx rest) {libc : Libc} {size domain : Nat} {alignment : Int}
    {world : World κ} (legal : s.client.Legal ctx (.alloc libc size domain alignment))
    (run : computeAllocGpuBuffer p.drm libc s.client.world ctx size domain alignment =
      .ok (none, world))
    (client : s'.client = { s.client with world }) (objects : s.KeepsObjects p s')
    (waits : s.Waits p s') :
    (∃ rest', s'.Inv p ctx rest') ∧ Arrays.Step (s.arrays) .refuse (s'.arrays) := by
  have call : s.client.call p.drm ctx (.alloc libc size domain alignment) = .ok s'.client := by
    simp only [Client.call, run, ok_bind, client]
  obtain ⟨rest', inv'⟩ := inv.call legal call waits
  refine ⟨⟨rest', inv'⟩, ?_⟩
  have changed := Client.changed inv.placed.legal.inv legal call
  have next : s'.arrays = s.arrays := by
    funext b
    refine inv.kept inv' objects (by rw [client]) fun old q own => ?_
    exact changed.others old own
  rw [next]
  exact .refuse

theorem Inv.free (inv : s.Inv p ctx rest) {bo : BufPtr} {world : World κ}
    (hbo : bo ∈ s.client.held)
    (run : computeFreeGpuBuffer p.drm s.client.world bo = .ok world)
    (client : s'.client = { world, held := s.client.held.erase bo })
    (objects : s.KeepsObjects p s') (waits : s.Waits p s') :
    (∃ rest', s'.Inv p ctx rest') ∧ Arrays.Step (s.arrays) (.drop bo) (s'.arrays) := by
  have call : s.client.call p.drm ctx (.free bo) = .ok s'.client := by
    simp only [Client.call, run, ok_bind, client]
  obtain ⟨rest', inv'⟩ := inv.call (c := .free bo) hbo call waits
  refine ⟨⟨rest', inv'⟩, ?_⟩
  have changed := Client.changed inv.placed.legal.inv (c := .free bo) hbo call
  have held : s'.client.held = s.client.held.erase bo := by rw [client]
  have next : s'.arrays = Function.update s.arrays bo none := by
    funext b
    by_cases own : b = bo
    · subst own
      rw [Function.update_self]
      exact if_neg (by rw [held]; exact Finset.notMem_erase _ _)
    · rw [Function.update_of_ne own]
      refine inv.kept inv' objects ?_ fun old q same => changed.others old same
      rw [held, Finset.mem_erase]
      exact and_iff_right own
  rw [next]
  exact .drop (if_pos hbo)

/-! ## Transfers -/

theorem Inv.toGpu (inv : s.Inv p ctx rest) {env : MmapEnv} {bo : BufPtr} {offset : Nat}
    {data : List Byte} {m : CopyMem} (asked : s.TransferAsked bo offset data.length)
    (run : computeCopyToGpu env s.heap bo offset data.length (.ofData s.vram data) = (.ret 0, m))
    (client : s'.client = s.client) (vram : s'.vram = m.vram) (waits : s.Waits p s') :
    s'.Inv p ctx rest ∧ Arrays.Step (s.arrays) (.write bo offset data) (s'.arrays) := by
  refine ⟨inv.still client (inv.waits_idle waits) waits.seen, ?_⟩
  have heap : s'.heap = s.heap := by rw [Machine.heap, client]
  have sized := inv.sized asked.held
  obtain ⟨m', granted, -, bytes⟩ := asked.straight.write MmapEnv.granting_succeeds
    sized.fragmented asked.some asked.inside (.ofData s.vram data) rfl
  obtain rfl : m = m' := congrArg Prod.snd ((copyFragments_granted_of_ret run).symm.trans granted)
  have written : splice (s.heap.contents s.vram bo) offset data = s'.heap.contents s'.vram bo := by
    rw [heap, vram]
    refine splice_map_range asked.inside (fun i hi => ?_) fun o inside outside => ?_
    · have new := bytes (offset + i) (Nat.lt_of_lt_of_le (by omega) asked.inside)
      rw [if_pos ⟨Nat.le_add_right _ _, by omega⟩, Nat.add_sub_cancel_left] at new
      show s.heap.flatByte bo m (offset + i) = _
      rw [new]
      simp [CopyMem.ofData, List.getD, hi]
    · have old := bytes o inside
      rw [if_neg outside] at old
      exact old
  have next : s'.arrays = Function.update s.arrays bo
      (some (splice (s.heap.contents s.vram bo) offset data)) := by
    funext b
    by_cases own : b = bo
    · subst own
      rw [Function.update_self, written]
      exact if_pos (by rw [client]; exact asked.held)
    · rw [Function.update_of_ne own]
      unfold arrays
      rw [client, heap]
      by_cases old : b ∈ s.client.held
      · rw [if_pos old, if_pos old]
        refine congrArg some (Heap.contents_congr (inv.sized old) (fun _ _ => rfl) fun j hj => ?_)
        -- the handles of other buffers are other handles
        rw [vram, ← (congrArg (fun r => r.2.vram) run)]
        refine computeCopyToGpu_vram fun i hi same => ?_
        rw [sized.fragmented.number] at hi
        have equal := inv.mapped.handles (inv.fragment asked.held hi) (inv.fragment old hj) same
        refine own (inv.placed.legal.owned.eq_of_block old asked.held ?_)
        rw [← BufPtr.add_block b j, ← equal, BufPtr.add_block]
      · rw [if_neg old, if_neg old]
  rw [next]
  refine .write (if_pos asked.held) ?_
  rw [Heap.contents, List.length_map, List.length_range]
  exact asked.inside

/-- A transfer that returned 0 has read its part of the buffer. -/
theorem Inv.read_back (inv : s.Inv p ctx rest) {vram : Nat → Nat → Byte} {env : MmapEnv}
    {bo : BufPtr} {offset size : Nat} {host : Nat → Byte} {m : CopyMem}
    (asked : s.TransferAsked bo offset size)
    (run : computeCopyFromGpu env s.heap bo offset size ⟨vram, host, size⟩ = (.ret 0, m)) :
    slice (s.heap.contents vram bo) offset size = (List.range size).map m.host ∧
      m.vram = vram := by
  obtain ⟨m', granted, bytes, same⟩ := asked.straight.read MmapEnv.granting_succeeds
    (inv.sized asked.held).fragmented asked.some asked.inside ⟨vram, host, size⟩ rfl
  obtain rfl : m = m' := congrArg Prod.snd ((copyFragments_granted_of_ret run).symm.trans granted)
  refine ⟨?_, same⟩
  rw [Heap.contents, slice_map_range asked.inside]
  refine List.map_congr_left fun i member => ?_
  exact (bytes i (List.mem_range.mp member)).symm

/-- A read returns, whatever mappings it is refused, and has read a beginning of its part. -/
theorem Inv.read_cut (inv : s.Inv p ctx rest) {bo : BufPtr} {offset size : Nat}
    (asked : s.TransferAsked bo offset size) (vram : Nat → Nat → Byte) (env : MmapEnv)
    (host : Nat → Byte) :
    ∃ r m n, computeCopyFromGpu env s.heap bo offset size ⟨vram, host, size⟩ = (.ret r, m) ∧
      (List.range size).map m.host =
        splice ((List.range size).map host) 0
          ((slice (s.heap.contents vram bo) offset size).take n) := by
  obtain ⟨full, granted, -⟩ := asked.straight.read MmapEnv.granting_succeeds
    (inv.sized asked.held).fragmented asked.some asked.inside ⟨vram, host, size⟩ rfl
  have whole := (inv.read_back asked granted).1
  obtain ⟨n, cut⟩ := computeCopyFromGpu_cut env s.heap bo offset size ⟨vram, host, size⟩
  obtain ⟨r, returned⟩ :
      ∃ r, (computeCopyFromGpu env s.heap bo offset size ⟨vram, host, size⟩).1 = .ret r := by
    rcases @copyFragments_granted memcpyFromGpu env s.heap bo offset size ⟨vram, host, size⟩
      with same | ⟨r, -, refused⟩
    · refine ⟨0, ?_⟩
      rw [computeCopyFromGpu, same]
      exact congrArg Prod.fst granted
    · exact ⟨r, refused⟩
  refine ⟨r, _, n, Prod.ext returned rfl, ?_⟩
  rw [granted] at cut
  have taken : (((List.range size).map full.host).take n).length = min n size := by simp
  rw [whole]
  refine (splice_map_range (by omega) (fun o inside => ?_) fun o _ outside => ?_).symm
  · rw [Nat.zero_add, cut o, if_pos (by omega)]
    simp
  · rw [cut o, if_neg (by omega)]

theorem Inv.fromGpu (inv : s.Inv p ctx rest) {env : MmapEnv} {bo : BufPtr} {offset size : Nat}
    {host : Nat → Byte} {m : CopyMem} (asked : s.TransferAsked bo offset size)
    (run : computeCopyFromGpu env s.heap bo offset size ⟨s.vram, host, size⟩ = (.ret 0, m))
    (client : s'.client = s.client) (vram : s'.vram = m.vram) (waits : s.Waits p s') :
    s'.Inv p ctx rest ∧
      Arrays.Step (s.arrays) (.read bo offset ((List.range size).map m.host)) (s'.arrays) := by
  refine ⟨inv.still client (inv.waits_idle waits) waits.seen, ?_⟩
  obtain ⟨back, same⟩ := inv.read_back asked run
  have next : s'.arrays = s.arrays := by
    unfold arrays heap
    rw [client, vram, same]
  rw [next, ← back]
  refine .read (if_pos asked.held) ?_
  rw [Heap.contents, List.length_map, List.length_range]
  exact asked.inside

/-! ## Copies on the device -/

/-- The address of a byte of a buffer, as the packets have it. -/
theorem Inv.vaAt (inv : s.Inv p ctx rest) {b : BufPtr} (hb : b ∈ s.client.held) (offset : SizeT)
    (inside : offset.toNat < s.heap.totalSize b) :
    (s.heap.vaAt b offset).toNat = (s.heap.buffer b).va + offset.toNat := by
  have small := (inv.sized hb).byte_lt inv.placed.legal hb inside
  rw [Heap.vaAt, BitVec.toNat_add, BitVec.toNat_ofNat, Nat.mod_add_mod, Nat.mod_eq_of_lt small]

/-- What a copy that was asked for may count on. -/
structure CopyFits (s : Machine κ κ') (ctx : Addr) (limit : Nat) (dst : BufPtr)
    (dstOffset : SizeT) (src : BufPtr) (srcOffset size : SizeT) : Prop where
  ready : CopyReady s.heap ctx dst src
  dstAt : (s.heap.vaAt dst dstOffset).toNat = (s.heap.buffer dst).va + dstOffset.toNat
  srcAt : (s.heap.vaAt src srcOffset).toNat = (s.heap.buffer src).va + srcOffset.toNat
  dstBelow : (s.heap.vaAt dst dstOffset).toNat + size.toNat ≤ limit
  srcBelow : (s.heap.vaAt src srcOffset).toNat + size.toNat ≤ limit
  apart : (s.heap.vaAt src srcOffset).toNat + size.toNat ≤ (s.heap.vaAt dst dstOffset).toNat ∨
    (s.heap.vaAt dst dstOffset).toNat + size.toNat ≤ (s.heap.vaAt src srcOffset).toNat

theorem Inv.copyFits (inv : s.Inv p ctx rest) {limit : Nat} {dst src : BufPtr}
    {dstOffset srcOffset size : SizeT}
    (asked : s.CopyAsked limit dst dstOffset src srcOffset size) :
    s.CopyFits ctx limit dst dstOffset src srcOffset size := by
  have positive : 0 < size.toNat :=
    Nat.pos_of_ne_zero fun zero => asked.some (BitVec.eq_of_toNat_eq zero)
  have legal := inv.placed.legal
  have dstInside := asked.dstInside
  have srcInside := asked.srcInside
  have dstAt := inv.vaAt asked.dstHeld dstOffset (by omega)
  have srcAt := inv.vaAt asked.srcHeld srcOffset (by omega)
  refine ⟨⟨legal.waitable asked.dstHeld (inv.placed.own dst asked.dstHeld),
    legal.waitable asked.srcHeld (inv.placed.own src asked.srcHeld)⟩, dstAt, srcAt,
    dstAt ▸ asked.dstBelow, srcAt ▸ asked.srcBelow, ?_⟩
  rw [dstAt, srcAt]
  by_contra overlap
  rw [not_or] at overlap
  -- the later of the two starts would be in both parts
  obtain ⟨i, j, hi, hj, shared⟩ : ∃ i j, i < size.toNat ∧ j < size.toNat ∧
      (s.heap.buffer dst).va + (dstOffset.toNat + i) =
        (s.heap.buffer src).va + (srcOffset.toNat + j) := by
    by_cases first : (s.heap.buffer dst).va + dstOffset.toNat ≤
        (s.heap.buffer src).va + srcOffset.toNat
    · exact ⟨(s.heap.buffer src).va + srcOffset.toNat -
        ((s.heap.buffer dst).va + dstOffset.toNat), 0, by omega, positive, by omega⟩
    · exact ⟨0, (s.heap.buffer dst).va + dstOffset.toNat -
        ((s.heap.buffer src).va + srcOffset.toNat), positive, by omega, by omega⟩
  obtain ⟨same, offsets⟩ := (inv.sized asked.dstHeld).byte_inj (inv.sized asked.srcHeld) legal
    asked.dstHeld asked.srcHeld (by omega) (by omega) shared
  have := asked.apart same
  omega

/-- A copy of the bytes at the addresses is a copy between the arrays. -/
theorem Inv.copied (inv : s.Inv p ctx rest) {limit : Nat} {dst src : BufPtr}
    {dstOffset srcOffset size : SizeT}
    (asked : s.CopyAsked limit dst dstOffset src srcOffset size) (client : s'.client = s.client)
    (moved : s'.mem p = (Move.mk (s.heap.vaAt dst dstOffset).toNat
      (s.heap.vaAt src srcOffset).toNat size.toNat).exec (s.mem p))
    (idle : s'.Idle p) (seen : (s'.kernel p).Shows s'.vram (s'.mem p)) :
    s'.Inv p ctx rest ∧ Arrays.Step (s.arrays)
      (.copy dst dstOffset.toNat src srcOffset.toNat size.toNat) (s'.arrays) := by
  have inv' := inv.still client idle seen
  refine ⟨inv', ?_⟩
  have fits := inv.copyFits asked
  have heap : s'.heap = s.heap := by rw [Machine.heap, client]
  have held : s'.client.held = s.client.held := by rw [client]
  have dstInside := asked.dstInside
  have srcInside := asked.srcInside
  rw [fits.dstAt, fits.srcAt] at moved
  have part : slice (s.heap.contents s.vram src) srcOffset.toNat size.toNat =
      (List.range size.toNat).map fun i =>
        s.mem p ((s.heap.buffer src).va + (srcOffset.toNat + i)) := by
    rw [inv.contents_eq asked.srcHeld]
    exact slice_map_range srcInside
  have next : s'.arrays = Function.update s.arrays dst
      (some (splice (s.heap.contents s.vram dst) dstOffset.toNat
        (slice (s.heap.contents s.vram src) srcOffset.toNat size.toNat))) := by
    funext b
    by_cases own : b = dst
    · subst own
      rw [Function.update_self]
      unfold arrays
      rw [held, if_pos asked.dstHeld, inv'.contents_eq (held ▸ asked.dstHeld), heap, part,
        inv.contents_eq asked.dstHeld]
      refine congrArg some (splice_map_range ?_ (fun i hi => ?_) fun o inside outside => ?_).symm
      · rw [List.length_map, List.length_range]
        exact dstInside
      · rw [List.length_map, List.length_range] at hi
        rw [moved, List.getElem_map, List.getElem_range, ← Nat.add_assoc, Move.exec_add _ hi,
          Nat.add_assoc]
      · rw [List.length_map, List.length_range] at outside
        rw [moved]
        exact Move.exec_of_notMem _ (by omega)
    · rw [Function.update_of_ne own]
      unfold arrays
      rw [held]
      by_cases old : b ∈ s.client.held
      · rw [if_pos old, if_pos old, inv'.contents_eq (held ▸ old), heap, inv.contents_eq old]
        refine congrArg some (List.map_congr_left fun o member => ?_)
        rw [moved]
        -- a byte of another buffer is at another address
        refine Move.exec_of_notMem _ fun ⟨lo, hi⟩ => own ?_
        have shared : (s.heap.buffer b).va + o = (s.heap.buffer dst).va +
            ((s.heap.buffer b).va + o - (s.heap.buffer dst).va) := by omega
        exact ((inv.sized old).byte_inj (inv.sized asked.dstHeld) inv.placed.legal old
          asked.dstHeld (List.mem_range.mp member) (by omega) shared).1
      · rw [if_neg old, if_neg old]
  rw [next]
  refine .copy (if_pos asked.dstHeld) (if_pos asked.srcHeld) ?_ ?_ asked.apart
  · rw [Heap.contents, List.length_map, List.length_range]
    exact dstInside
  · rw [Heap.contents, List.length_map, List.length_range]
    exact srcInside

theorem Inv.syncCopy (inv : s.Inv p ctx rest) {dst src : BufPtr}
    {dstOffset srcOffset size : SizeT}
    (asked : s.CopyAsked (2 ^ 48) dst dstOffset src srcOffset size)
    (run : syncDmaCopy p.patientDrm s.heap ctx dst dstOffset src
      srcOffset size s.cs = .ok s'.cs)
    (client : s'.client = s.client) (seen : (s'.kernel p).Shows s'.vram (s'.mem p)) :
    s'.Inv p ctx rest ∧ Arrays.Step (s.arrays)
      (.copy dst dstOffset.toNat src srcOffset.toNat size.toNat) (s'.arrays) := by
  have fits := inv.copyFits asked
  obtain ⟨w', es, js, returned, history, gone⟩ := syncDmaCopy_gone p.inOrder p.grants fits.ready
    asked.some fits.srcBelow fits.dstBelow fits.apart s.cs
  obtain rfl : s'.cs = w' := Except.ok.inj (run.symm.trans returned)
  rw [inv.descriptor] at gone
  obtain ⟨moved, idle⟩ := copied_of_run history gone p.makes p.isolated inv.idle
  exact inv.copied asked client moved idle seen

theorem Inv.asyncCopy (inv : s.Inv p ctx rest) {dst src : BufPtr}
    {dstOffset srcOffset size : SizeT} {w : CsWorld κ'}
    (asked : s.CopyAsked (2 ^ 40) dst dstOffset src srcOffset size)
    (dwords : Aligned (s.heap.vaAt src srcOffset) (s.heap.vaAt dst dstOffset) → 4 ∣ size.toNat)
    (run : asyncDmaCopy p.patientDrm s.heap ctx dst dstOffset src
      srcOffset size s.cs = .ok w)
    (fence : asyncDmaFence p.patientDrm s.heap dst w = .ok s'.cs)
    (client : s'.client = s.client) (seen : (s'.kernel p).Shows s'.vram (s'.mem p)) :
    s'.Inv p ctx rest ∧ Arrays.Step (s.arrays)
      (.copy dst dstOffset.toNat src srcOffset.toNat size.toNat) (s'.arrays) := by
  have fits := inv.copyFits asked
  obtain ⟨w₁, w', es, js, returned, fenced, history, gone⟩ := asyncDmaFence_gone p.inOrder p.grants
    fits.ready asked.some fits.srcBelow fits.dstBelow fits.apart dwords s.cs
  obtain rfl : w = w₁ := Except.ok.inj (run.symm.trans returned)
  obtain rfl : s'.cs = w' := Except.ok.inj (fence.symm.trans fenced)
  rw [inv.descriptor] at gone
  obtain ⟨moved, idle⟩ := copied_of_run history gone p.makes p.isolated inv.idle
  exact inv.copied asked client moved idle seen

/-! ## All calls -/

/-- Every call keeps the invariant and is the operation it is labelled with. -/
theorem Inv.step (inv : s.Inv p ctx rest) {op : ArrayOp BufPtr Byte}
    (step : s.Step p ctx op s') :
    (∃ rest', s'.Inv p ctx rest') ∧ Arrays.Step (s.arrays) op (s'.arrays) := by
  cases step with
  | alloc legal run client objects waits => exact inv.alloc legal run client objects waits
  | refused legal run client objects waits => exact inv.refused legal run client objects waits
  | free hbo run client objects waits => exact inv.free hbo run client objects waits
  | toGpu asked run client vram waits =>
      obtain ⟨inv', does⟩ := inv.toGpu asked run client vram waits
      exact ⟨⟨rest, inv'⟩, does⟩
  | fromGpu asked run client vram waits =>
      obtain ⟨inv', does⟩ := inv.fromGpu asked run client vram waits
      exact ⟨⟨rest, inv'⟩, does⟩
  | syncCopy asked run client seen =>
      obtain ⟨inv', does⟩ := inv.syncCopy asked run client seen
      exact ⟨⟨rest, inv'⟩, does⟩
  | asyncCopy asked dwords run fence client seen =>
      obtain ⟨inv', does⟩ := inv.asyncCopy asked dwords run fence client seen
      exact ⟨⟨rest, inv'⟩, does⟩

/-- A process with a new context has no arrays. -/
theorem Inv.start (init : (machineSystem p ctx).init s) :
    s.Inv p ctx [] ∧ s.arrays = fun _ => none := by
  obtain ⟨held, descriptor, idle, seen, libc, h, reservedMem, ctxLive, small, run⟩ := init
  refine ⟨⟨.start p.view ctx held ctxLive small run, descriptor, idle, seen⟩, ?_⟩
  funext b
  exact if_neg (by rw [held]; exact Finset.notMem_empty b)

end Machine

/-- The calls refine the memory of named arrays. -/
theorem machine_refines (p : Platform κ κ') (ctx : Addr) :
    (machineSystem p ctx).Refines (arraySystem BufPtr Byte) (fun s => ∃ rest, s.Inv p ctx rest)
      Machine.arrays where
  inv :=
    { init := fun s init => ⟨[], (Machine.Inv.start init).1⟩
      step := fun s op s' inv step => by
        obtain ⟨rest, inv⟩ := inv
        exact (inv.step step).1 }
  init s init := (Machine.Inv.start init).2
  step s op s' inv _ step := by
    obtain ⟨rest, inv⟩ := inv
    exact (inv.step step).2

end RadeonsiCompute
