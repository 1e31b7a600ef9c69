import RadeonsiCompute.Dma.Decode
import RadeonsiCompute.Transfer.Held

/-!
# A synchronous copy is one copy

The packets `syncDMACopy` emits, decoded and executed in order, do what a
single move of the whole range does: the pieces tile the range, the first
packet waits for earlier writes and the last one synchronises.
-/

namespace RadeonsiCompute

open Lib

section

variable {κ : Type} (drm : CsDrm κ) {h : Heap} {ctx : Addr} {dst src : BufPtr}
  {dstOffset srcOffset size : SizeT}

/-- The packet for one piece of a copy from `srcVa` to `dstVa`. -/
def syncPiece (srcVa dstVa size : SizeT) (p : Nat × Nat) : CpDma where
  src := srcVa.toNat + p.1
  dst := dstVa.toNat + p.1
  byteCount := p.2
  cpSync := decide (p.1 + p.2 = size.toNat)
  rawWait := decide (p.1 = 0)
  srcSel := 0
  dstSel := 0
  engine := 1
  command := 0

/-- The submission for one piece. -/
def syncRequest (relocs : List CsRelocGem) (srcVa dstVa size : SizeT) (p : Nat × Nat) : RadeonCs :=
  radeonCs radeonCsRingCompute relocs
    (syncDmaBuf (srcVa + .ofNat 64 p.1) (dstVa + .ofNat 64 p.1) (.ofNat 64 p.2)
      (decide (.ofNat 64 p.1 + .ofNat 64 p.2 ≥ size)) (decide (.ofNat 64 p.1 = 0#64)) true) 1

/-- The address of a byte some way into a buffer. -/
theorem Heap.vaAt_add (h : Heap) (bo : BufPtr) (i offset : SizeT) :
    h.vaAt bo (i + offset) = h.vaAt bo offset + i := by
  unfold Heap.vaAt
  rw [BitVec.add_comm i, BitVec.add_assoc]

/-- The pieces of a copy are fair requests, and fit in a `size_t`. -/
theorem dmaPieces_mem {p : Nat × Nat} (member : p ∈ dmaPieces size) :
    0 < p.2 ∧ p.2 ≤ 524288 ∧ p.1 + p.2 ≤ size.toNat ∧ size.toNat < 2 ^ 64 ∧
      RequestSize (.ofNat 64 p.2) := by
  obtain ⟨some, capped, -, stop, -, -⟩ := pieces_mem p member
  have limit := size.isLt
  refine ⟨some, capped, by omega, limit, requestSize_iff.mpr ?_⟩
  rw [BitVec.toNat_ofNat, Nat.mod_eq_of_lt (by omega)]
  omega

/-- Where a piece starts and how long it is, as the `size_t` of the request. -/
theorem dmaPieces_toNat {p : Nat × Nat} (member : p ∈ dmaPieces size) :
    (BitVec.ofNat 64 p.1).toNat = p.1 ∧ (BitVec.ofNat 64 p.2).toNat = p.2 := by
  obtain ⟨-, -, stop, limit, -⟩ := dmaPieces_mem member
  constructor
  · rw [BitVec.toNat_ofNat, Nat.mod_eq_of_lt (by omega)]
  · rw [BitVec.toNat_ofNat, Nat.mod_eq_of_lt (by omega)]

/-- The address of a piece, in a copy that does not wrap. -/
theorem dmaPieces_address {p : Nat × Nat} (member : p ∈ dmaPieces size) {va : SizeT}
    (below : va.toNat + size.toNat < 2 ^ 64) :
    (va + .ofNat 64 p.1).toNat = va.toNat + p.1 := by
  obtain ⟨-, -, stop, -, -⟩ := dmaPieces_mem member
  rw [BitVec.toNat_add, (dmaPieces_toNat member).1, Nat.mod_eq_of_lt (by omega)]

/-- **What a synchronous copy submits**, one packet for each piece. -/
theorem syncDmaCopy_submitted (ready : DmaReady h ctx dst src) (dstOffset srcOffset size : SizeT)
    (w : CsWorld κ) : ∃ relocs w', DmaRelocs h dst src relocs ∧
      syncDmaCopy drm h ctx dst dstOffset src srcOffset size w = .ok w' ∧
      w'.submitted = w.submitted ++ (dmaPieces size).map
        (syncRequest relocs (h.vaAt src srcOffset) (h.vaAt dst dstOffset) size) := by
  obtain ⟨relocs, pushed⟩ := ready.relocs
  have one : ∀ p ∈ dmaPieces size, ∀ w : CsWorld κ, ∃ r w',
      syncDmaSend drm h ctx dst dstOffset src srcOffset size (.ofNat 64 p.1) (.ofNat 64 p.2) w =
        .ok (r, w') ∧
      w'.submitted = w.submitted ++
        [syncRequest relocs (h.vaAt src srcOffset) (h.vaAt dst dstOffset) size p] := by
    intro p member w
    have spec := computeSendSyncDmaReq_spec drm ready pushed (dmaPieces_mem member).2.2.2.2
      (.ofNat 64 p.1 + dstOffset) (.ofNat 64 p.1 + srcOffset)
      (decide (.ofNat 64 p.1 + .ofNat 64 p.2 ≥ size)) (decide (.ofNat 64 p.1 = 0#64)) true w
    rw [Heap.vaAt_add, Heap.vaAt_add] at spec
    exact spec
  obtain ⟨w', run, added⟩ := foldlM_sendPiece (dmaPieces size) w one
  refine ⟨relocs, w', pushed, ?_, added⟩
  rw [syncDmaCopy, dmaCopyLoop_eq]
  exact run

/-- Each submission decodes to the packet for its piece. -/
theorem decodeSyncIb_request (relocs : List CsRelocGem) {srcVa dstVa : SizeT}
    (srcBelow : srcVa.toNat + size.toNat ≤ 2 ^ 48) (dstBelow : dstVa.toNat + size.toNat ≤ 2 ^ 48)
    {p : Nat × Nat} (member : p ∈ dmaPieces size) :
    decodeSyncIb (syncRequest relocs srcVa dstVa size p).ib =
      some [syncPiece srcVa dstVa size p] := by
  obtain ⟨some, capped, stop, limit, -⟩ := dmaPieces_mem member
  obtain ⟨start, len⟩ := dmaPieces_toNat member
  have srcAt := @dmaPieces_address size p member srcVa (by omega)
  have dstAt := @dmaPieces_address size p member dstVa (by omega)
  have last : .ofNat 64 p.1 + .ofNat 64 p.2 ≥ size ↔ p.1 + p.2 = size.toNat := by
    rw [ge_iff_le, BitVec.le_def, BitVec.toNat_add, start, len, Nat.mod_eq_of_lt (by omega)]
    omega
  have first : BitVec.ofNat 64 p.1 = 0#64 ↔ p.1 = 0 := by
    rw [← BitVec.toNat_inj, start]
    rfl
  rw [syncRequest, radeonCs_ib, decodeSyncIb_sync _ _ _ (by omega) (by omega) (by omega), srcAt,
    dstAt, len]
  simp only [last, first]
  rfl

/-- The submissions for some of the pieces decode to their packets. -/
theorem decodeSyncIb_requests (relocs : List CsRelocGem) {srcVa dstVa : SizeT}
    (srcBelow : srcVa.toNat + size.toNat ≤ 2 ^ 48) (dstBelow : dstVa.toNat + size.toNat ≤ 2 ^ 48)
    (ps : List (Nat × Nat)) : ps ⊆ dmaPieces size →
      decodeSyncIb ((ps.map (syncRequest relocs srcVa dstVa size)).flatMap RadeonCs.ib) =
        some (ps.map (syncPiece srcVa dstVa size)) := by
  induction ps with
  | nil =>
      intro _
      exact decodeSyncIb_nil
  | cons p ps ih =>
      intro inside
      rw [List.map_cons, List.flatMap_cons, List.map_cons]
      exact decodeSyncIb_append
        (decodeSyncIb_request relocs srcBelow dstBelow (inside List.mem_cons_self))
        (ih fun p' later => inside (List.mem_cons_of_mem p later))

/-- The packets execute as one copy of `size` bytes, writing each byte once. -/
structure OneCopy (packets : List CpDma) (dst src size : Nat) : Prop where
  exec : ∀ (β : Type) (mem : Nat → β),
    execCpDmas packets mem = some ((Move.mk dst src size).exec mem)
  once : ∀ a, packets.countP (fun p => decide (p.dst ≤ a ∧ a < p.dst + p.byteCount)) =
    if dst ≤ a ∧ a < dst + size then 1 else 0
  rawWait : ∀ k (_ : k < packets.length), packets[k].rawWait = decide (k = 0)
  cpSync : ∀ k (_ : k < packets.length), packets[k].cpSync = decide (k + 1 = packets.length)

/-- The packets for the pieces of a copy are one copy. -/
theorem oneCopy_pieces {srcVa dstVa : SizeT}
    (apart : srcVa.toNat + size.toNat ≤ dstVa.toNat ∨ dstVa.toNat + size.toNat ≤ srcVa.toNat) :
    OneCopy ((dmaPieces size).map (syncPiece srcVa dstVa size)) dstVa.toNat srcVa.toNat
      size.toNat := by
  have tiles := @pieces_tiles 524287 0 size.toNat dstVa.toNat srcVa.toNat
  rw [Nat.add_zero, Nat.add_zero] at tiles
  constructor
  · intro β mem
    rw [← tiles.foldl_exec apart]
    apply execCpDmas_eq
    rw [List.map_map, List.map_map]
    rfl
  · intro a
    have covers := tiles.countP_covers a
    rw [List.countP_map] at covers ⊢
    exact covers
  · intro k hk
    have first := @pieces_start_iff 524287 0 size.toNat k (by rwa [List.length_map] at hk)
    simp only [List.getElem_map, syncPiece, decide_eq_decide]
    exact first
  · intro k hk
    have last := @pieces_stop_iff 524287 0 size.toNat k (by rwa [List.length_map] at hk)
    rw [Nat.zero_add] at last
    simp only [List.getElem_map, List.length_map, syncPiece, decide_eq_decide]
    exact last

/-- **A synchronous copy is one copy**, of any size between ranges that do not
overlap. -/
theorem syncDmaCopy_oneCopy (ready : DmaReady h ctx dst src) (dstOffset srcOffset size : SizeT)
    (w : CsWorld κ) (srcBelow : (h.vaAt src srcOffset).toNat + size.toNat ≤ 2 ^ 48)
    (dstBelow : (h.vaAt dst dstOffset).toNat + size.toNat ≤ 2 ^ 48)
    (apart : (h.vaAt src srcOffset).toNat + size.toNat ≤ (h.vaAt dst dstOffset).toNat ∨
      (h.vaAt dst dstOffset).toNat + size.toNat ≤ (h.vaAt src srcOffset).toNat) :
    ∃ w' requests packets, syncDmaCopy drm h ctx dst dstOffset src srcOffset size w = .ok w' ∧
      w'.submitted = w.submitted ++ requests ∧
      decodeSyncIb (requests.flatMap RadeonCs.ib) = some packets ∧
      OneCopy packets (h.vaAt dst dstOffset).toNat (h.vaAt src srcOffset).toNat size.toNat ∧
      (size = 0 → requests = []) := by
  obtain ⟨relocs, w', -, run, added⟩ :=
    syncDmaCopy_submitted drm ready dstOffset srcOffset size w
  refine ⟨w', _, _, run, added, decodeSyncIb_requests relocs srcBelow dstBelow _ fun _ => id,
    oneCopy_pieces apart, fun empty => ?_⟩
  rw [empty, dmaPieces]
  exact congrArg _ pieces_zero

end

/-- Whatever was allocated and freed before, two buffers that are held can be
copied between. -/
theorem poolSystem_dmaReady (fresh : Allocator) (ctx : Addr) {s : Client Kernel}
    (reach : (poolSystem (kernelDrm fresh) ctx).Reachable s) {dst src : BufPtr}
    (dstHeld : dst ∈ s.held) (srcHeld : src ∈ s.held) : DmaReady s.world.heap ctx dst src where
  ctxLive := by
    obtain ⟨rest, inv, -⟩ := (Client.inductive_heldInv ctx fresh).invariant reach
    exact inv.1.ctxLive
  dst := (poolSystem_fragmented fresh ctx reach dstHeld).intact
  src := (poolSystem_fragmented fresh ctx reach srcHeld).intact

/-- A buffer on its own can be copied to itself. -/
theorem DmaReady.oneBuffer {total : Nat} (request : RequestOk total) :
    DmaReady (.oneBuffer total) 0 ⟨0, 0⟩ ⟨0, 0⟩ where
  ctxLive := Finset.mem_singleton_self 0
  dst := (Fragmented.oneBuffer request).intact
  src := (Fragmented.oneBuffer request).intact

/-- A copy of three pieces, inside one buffer. -/
theorem syncDmaCopy_oneCopy_threePieces :
    ∃ w' requests packets,
      syncDmaCopy .obliging (.oneBuffer 104857600) 0 ⟨0, 0⟩ 2097155 ⟨0, 0⟩ 10 1048581 ⟨(), []⟩ =
        .ok w' ∧
      w'.submitted = requests ∧ decodeSyncIb (requests.flatMap RadeonCs.ib) = some packets ∧
      OneCopy packets 2101251 4106 1048581 := by
  have ready := DmaReady.oneBuffer (requestOk_of_le (by decide) (by decide : 104857600 ≤ 2 ^ 40))
  obtain ⟨w', requests, packets, run, added, decoded, oneCopy, -⟩ :=
    syncDmaCopy_oneCopy .obliging ready 2097155 10 1048581 ⟨(), []⟩
      (by rw [Heap.oneBuffer_vaAt]; decide) (by rw [Heap.oneBuffer_vaAt]; decide)
      (by rw [Heap.oneBuffer_vaAt, Heap.oneBuffer_vaAt]; decide)
  rw [Heap.oneBuffer_vaAt, Heap.oneBuffer_vaAt] at oneCopy
  exact ⟨w', requests, packets, run, added, decoded, oneCopy⟩

end RadeonsiCompute
