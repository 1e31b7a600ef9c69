import RadeonsiCompute.Ring.Copy

/-!
# Copies that are waited for

`syncDMACopy` returns when its last piece has been waited for, and
`asyncDMAFence` when nothing that lists the buffer is left. Every piece lists
all fragments of both buffers, so in both cases the last piece is gone, and with
it the whole copy.
-/

namespace RadeonsiCompute

open Lib

variable {κ β : Type} {drm : CsDrm κ} {view : κ → Rings Job (Nat → β)}
  {effect : Job → (Nat → β) → (Nat → β) → Prop} {patience : Nat}

/-! ## What a copy lists -/

section Lists

variable {h : Heap} {ctx : Addr} {dst src bo : BufPtr}

theorem Heap.Waitable.intact (waitable : h.Waitable ctx bo) : h.Intact bo where
  self := waitable.self
  valid := waitable.valid
  ctxLive i hi := by
    rw [waitable.own i hi]
    exact waitable.ctxLive

/-- The relocations of a copy hold the destination. -/
theorem DmaRelocs.mem_dst {relocs : List CsRelocGem} (pushed : DmaRelocs h dst src relocs)
    (waitable : h.Waitable ctx dst) : (h.buffer dst).reloc ∈ relocs := by
  obtain ⟨first, -, pushDst⟩ := pushed.pushed
  rw [computePushReloc_eq waitable.self waitable.valid] at pushDst
  rw [← Except.ok.inj pushDst]
  refine List.mem_append_right _ (List.mem_map.mpr ⟨0, ?_, by rw [BufPtr.add_zero]⟩)
  simpa using waitable.positive

/-- So a submission of the copy lists it. -/
theorem lists_dst {relocs : List CsRelocGem} (pushed : DmaRelocs h dst src relocs)
    (waitable : h.Waitable ctx dst) (fd : Nat) (ring : Dword) (buf : List Dword) (csId : Dword) :
    (⟨fd, radeonCs ring relocs buf csId⟩ : Job).Lists fd (h.buffer dst).handle := by
  refine ⟨rfl, ?_⟩
  rw [radeonCs_handles]
  exact List.mem_map_of_mem (f := fun r : CsRelocGem => BitVec.ofNat 32 r.handle)
    (pushed.mem_dst waitable)

end Lists

/-! ## One request -/

section Requests

variable {h : Heap} {ctx : Addr} {dst src : BufPtr} {dstOffset srcOffset size : SizeT}

/-- What the copies of this section ask for: both buffers can be waited for. -/
structure CopyReady (h : Heap) (ctx : Addr) (dst src : BufPtr) : Prop where
  dst : h.Waitable ctx dst
  src : h.Waitable ctx src

theorem CopyReady.dma (ready : CopyReady h ctx dst src) : DmaReady h ctx dst src where
  ctxLive := ready.dst.ctxLive
  dst := ready.dst.intact
  src := ready.src.intact

/-- A synchronous request is accepted, and with the flag waited for. -/
theorem computeSendSyncDmaReq_leads (inOrder : drm.InOrder effect view patience)
    (taken : ∀ fd cs k, (drm.cs fd cs k).1 = 0)
    (zero : ∀ fd handle k, (drm.waitIdle fd handle k).1 = 0) (ready : CopyReady h ctx dst src)
    {relocs : List CsRelocGem} (pushed : DmaRelocs h dst src relocs) (fair : RequestSize size)
    (dstOffset srcOffset : SizeT) (syncFlag rawWaitFlag usePfpEngine : Bool) (w : CsWorld κ) :
    ∃ r w', computeSendSyncDmaReq drm h ctx dst dstOffset src srcOffset size syncFlag rawWaitFlag
        usePfpEngine w = .ok (r, w') ∧
      Leads effect view (h.contexts.cell ctx).fd w.kernel
        [⟨(h.contexts.cell ctx).fd, radeonCs radeonCsRingCompute relocs
          (syncDmaBuf (h.vaAt src srcOffset) (h.vaAt dst dstOffset) size syncFlag rawWaitFlag
            usePfpEngine) 1⟩] w'.kernel ∧
      (syncFlag = true → ∀ job ∈ (view w'.kernel).pending,
        ¬ job.Lists (h.contexts.cell ctx).fd (h.buffer dst).handle) := by
  obtain ⟨first, pushSrc, pushDst⟩ := pushed.pushed
  simp only [computeSendSyncDmaReq, assertThat_ok fair.1, assertThat_ok fair.2, ok_bind,
    Heap.loadBuffer_eq ready.src.self, Heap.loadBuffer_eq ready.dst.self, pushSrc, pushDst,
    Store.load_eq ready.dst.ctxLive]
  have sent := inOrder.submit w (h.contexts.cell ctx).fd (radeonCs radeonCsRingCompute relocs
    (syncDmaBuf (h.vaAt src srcOffset) (h.vaAt dst dstOffset) size syncFlag rawWaitFlag
      usePfpEngine) 1) (taken _ _ _)
  unfold Heap.vaAt at sent ⊢
  generalize CsWorld.submit drm w _ _ = reply at sent ⊢
  obtain ⟨r, w₁⟩ := reply
  cases syncFlag with
  | false => exact ⟨r, w₁, rfl, sent, fun flag => absurd flag Bool.false_ne_true⟩
  | true =>
      obtain ⟨ret₂, w₂, wait₂, -, leads₂, idle, source⟩ := computeBoWait_idle inOrder ready.dst w₁
      obtain ⟨ret₃, w₃, wait₃, -, leads₃, -⟩ := computeBoWait_idle inOrder ready.src w₂
      refine ⟨r, w₃, ?_, (sent.trans leads₂).trans leads₃, fun _ => leads₃.keeps_idle ?_⟩
      · simp only [if_true, wait₂, wait₃, ok_bind]
      · have done : ret₂ = 0 := by
          rcases source with done | ⟨fd, handle, k, rfl⟩
          · exact done
          · exact zero fd handle k
        have here := idle done 0 ready.dst.positive
        rwa [BufPtr.add_zero] at here

/-- An asynchronous request that passes its assertions is accepted. -/
theorem computeSendAsyncDmaReq_leads (inOrder : drm.InOrder effect view patience)
    (taken : ∀ fd cs k, (drm.cs fd cs k).1 = 0) (ready : CopyReady h ctx dst src)
    {relocs : List CsRelocGem} (pushed : DmaRelocs h dst src relocs)
    (allowed : AsyncAllowed h dst dstOffset src srcOffset size) (w : CsWorld κ) :
    ∃ r w', computeSendAsyncDmaReq drm h ctx dst dstOffset src srcOffset size w = .ok (r, w') ∧
      Leads effect view (h.contexts.cell ctx).fd w.kernel
        [⟨(h.contexts.cell ctx).fd, radeonCs radeonCsRingDma relocs
          (asyncDmaBuf (h.vaAt src srcOffset) (h.vaAt dst dstOffset) size) 1⟩] w'.kernel := by
  obtain ⟨first, pushSrc, pushDst⟩ := pushed.pushed
  have srcShort := allowed.src
  have dstShort := allowed.dst
  unfold Heap.vaAt at srcShort dstShort
  simp only [computeSendAsyncDmaReq, assertThat_ok allowed.size.1, assertThat_ok allowed.size.2,
    ok_bind, Heap.loadBuffer_eq ready.src.self, Heap.loadBuffer_eq ready.dst.self,
    assertThat_ok srcShort, assertThat_ok dstShort, pushSrc, pushDst,
    Store.load_eq ready.dst.ctxLive]
  exact ⟨_, _, rfl, inOrder.submit w _ _ (taken _ _ _)⟩

end Requests

/-! ## All requests of a copy -/

section Loop

variable {send : SizeT → SizeT → CsWorld κ → Except Fault (Int × CsWorld κ)}
  {request : Nat × Nat → RadeonCs} {fd : Nat}

/-- A copy whose requests are each accepted has its pieces accepted in order. -/
theorem foldlM_sendPiece_leads (ps : List (Nat × Nat)) :
    ∀ w : CsWorld κ, (∀ p ∈ ps, ∀ w : CsWorld κ, ∃ r w',
      send (.ofNat 64 p.1) (.ofNat 64 p.2) w = .ok (r, w') ∧
        Leads effect view fd w.kernel [⟨fd, request p⟩] w'.kernel) →
      ∃ w', ps.foldlM (sendPiece send) w = .ok w' ∧
        Leads effect view fd w.kernel (ps.map fun p => ⟨fd, request p⟩) w'.kernel := by
  induction ps with
  | nil => intro w _; exact ⟨w, rfl, .refl fd w.kernel⟩
  | cons p ps ih =>
      intro w sends
      obtain ⟨r, w₁, run, leads⟩ := sends p List.mem_cons_self w
      obtain ⟨w₂, rest, later⟩ := ih w₁ fun p' member => sends p' (List.mem_cons_of_mem _ member)
      refine ⟨w₂, ?_, ?_⟩
      · rw [List.foldlM_cons, sendPiece, run]
        exact rest
      · rw [List.map_cons]
        exact leads.trans later

/-- The pieces of a copy, once none of them is pending. -/
theorem copyGone_of_pieces (move : Nat × Nat → Move) {k k' : κ} {size : SizeT} {ring : Dword}
    {dst src : Nat}
    (leads : Leads effect view fd k ((dmaPieces size).map fun p => ⟨fd, request p⟩) k')
    (onRing : ∀ p, (request p).ring = some ring)
    (decoded : ∀ p ∈ dmaPieces size, (⟨fd, request p⟩ : Job).moves = some [move p])
    (tiles : Tiles ((dmaPieces size).map move) dst src size.toNat)
    (clear : src + size.toNat ≤ dst ∨ dst + size.toNat ≤ src) (some : size.toNat ≠ 0)
    (gone : ∀ p, (⟨fd, request p⟩ : Job) ∉ (view k').pending) :
    ∃ es, Rings.Run Job.ring effect (view k) es (view k') ∧
      CopyGone fd ring dst src size.toNat es (view k')
        ((dmaPieces size).map fun p => ⟨fd, request p⟩) fun job => job.moves.getD [] := by
  obtain ⟨es, run, own⟩ := leads
  obtain ⟨init, last, split, -, -⟩ := @pieces_last 524287 0 _ some
  have moved : ((dmaPieces size).map fun p => (⟨fd, request p⟩ : Job)).flatMap
      (fun job => job.moves.getD []) = (dmaPieces size).map move := by
    rw [List.flatMap_map, List.map_eq_flatMap]
    refine List.flatMap_congr fun p member => ?_
    rw [decoded p member]
    rfl
  refine ⟨es, run, own, ?_, ?_, moved ▸ tiles, clear, ?_⟩
  · intro job member
    obtain ⟨p, -, rfl⟩ := List.mem_map.mp member
    exact onRing p
  · intro job member
    obtain ⟨p, inPieces, rfl⟩ := List.mem_map.mp member
    rw [decoded p inPieces]
    rfl
  · refine ⟨init.map fun p => ⟨fd, request p⟩, ⟨fd, request last⟩, ?_, gone last⟩
    rw [dmaPieces, split, List.map_append]
    rfl

end Loop

/-! ## Synchronous copies -/

section Sync

variable {h : Heap} {ctx : Addr} {dst src : BufPtr} {dstOffset srcOffset size : SizeT}

/-- A synchronous copy is accepted piece by piece, and the last piece waited for. -/
theorem syncDmaCopy_leads (inOrder : drm.InOrder effect view patience)
    (taken : ∀ fd cs k, (drm.cs fd cs k).1 = 0)
    (zero : ∀ fd handle k, (drm.waitIdle fd handle k).1 = 0) (ready : CopyReady h ctx dst src)
    {relocs : List CsRelocGem} (pushed : DmaRelocs h dst src relocs)
    (dstOffset srcOffset : SizeT) (some : size.toNat ≠ 0) (w : CsWorld κ) :
    ∃ w', syncDmaCopy drm h ctx dst dstOffset src srcOffset size w = .ok w' ∧
      Leads effect view (h.contexts.cell ctx).fd w.kernel
        ((dmaPieces size).map fun p => ⟨(h.contexts.cell ctx).fd,
          syncRequest relocs (h.vaAt src srcOffset) (h.vaAt dst dstOffset) size p⟩) w'.kernel ∧
      ∀ job ∈ (view w'.kernel).pending,
        ¬ job.Lists (h.contexts.cell ctx).fd (h.buffer dst).handle := by
  have one : ∀ p ∈ dmaPieces size, ∀ w : CsWorld κ, ∃ r w',
      syncDmaSend drm h ctx dst dstOffset src srcOffset size (.ofNat 64 p.1) (.ofNat 64 p.2) w =
        .ok (r, w') ∧
      Leads effect view (h.contexts.cell ctx).fd w.kernel [⟨(h.contexts.cell ctx).fd,
        syncRequest relocs (h.vaAt src srcOffset) (h.vaAt dst dstOffset) size p⟩] w'.kernel ∧
      (.ofNat 64 p.1 + .ofNat 64 p.2 ≥ size → ∀ job ∈ (view w'.kernel).pending,
        ¬ job.Lists (h.contexts.cell ctx).fd (h.buffer dst).handle) := by
    intro p member w
    have spec := computeSendSyncDmaReq_leads inOrder taken zero ready pushed
      (dmaPieces_mem member).2.2.2.2 (.ofNat 64 p.1 + dstOffset) (.ofNat 64 p.1 + srcOffset)
      (decide (.ofNat 64 p.1 + .ofNat 64 p.2 ≥ size)) (decide (.ofNat 64 p.1 = 0#64)) true w
    rw [Heap.vaAt_add, Heap.vaAt_add] at spec
    obtain ⟨r, w', run, leads, waited⟩ := spec
    exact ⟨r, w', run, leads, fun last => waited (decide_eq_true last)⟩
  obtain ⟨init, last, split, stop, -⟩ := @pieces_last 524287 0 _ some
  have pieces : dmaPieces size = init ++ [last] := split
  obtain ⟨w₁, early, leads₁⟩ := foldlM_sendPiece_leads init w fun p member w => by
    obtain ⟨r, w', run, leads, -⟩ := one p (by rw [pieces]; exact List.mem_append_left _ member) w
    exact ⟨r, w', run, leads⟩
  have lastIn : last ∈ dmaPieces size := by
    rw [pieces]
    exact List.mem_append_right _ (List.mem_singleton_self last)
  obtain ⟨r, w₂, late, leads₂, waited⟩ := one last lastIn w₁
  refine ⟨w₂, ?_, ?_, waited ?_⟩
  · rw [syncDmaCopy, dmaCopyLoop_eq]
    show (dmaPieces size).foldlM _ w = _
    rw [pieces, List.foldlM_append, early, ok_bind, List.foldlM_cons, sendPiece, late]
    rfl
  · rw [pieces, List.map_append]
    exact leads₁.trans leads₂
  · -- the last piece ends the copy, so it carries the flag
    obtain ⟨-, -, bound, limit, -⟩ := dmaPieces_mem lastIn
    obtain ⟨start, len⟩ := dmaPieces_toNat lastIn
    rw [ge_iff_le, BitVec.le_def, BitVec.toNat_add, start, len, Nat.mod_eq_of_lt (by omega)]
    omega

/-- When a synchronous copy returns, all its submissions are gone. -/
theorem syncDmaCopy_gone (inOrder : drm.InOrder effect view patience) (grants : drm.Grants)
    (ready : CopyReady h ctx dst src) (some : size ≠ 0)
    (srcBelow : (h.vaAt src srcOffset).toNat + size.toNat ≤ 2 ^ 48)
    (dstBelow : (h.vaAt dst dstOffset).toNat + size.toNat ≤ 2 ^ 48)
    (apart : (h.vaAt src srcOffset).toNat + size.toNat ≤ (h.vaAt dst dstOffset).toNat ∨
      (h.vaAt dst dstOffset).toNat + size.toNat ≤ (h.vaAt src srcOffset).toNat)
    (w : CsWorld κ) :
    ∃ w' es js, syncDmaCopy (drm.patient (retryRounds view patience)) h ctx dst dstOffset src
        srcOffset size w = .ok w' ∧ Rings.Run Job.ring effect (view w.kernel) es (view w'.kernel) ∧
      CopyGone (h.contexts.cell ctx).fd radeonCsRingCompute (h.vaAt dst dstOffset).toNat
        (h.vaAt src srcOffset).toNat size.toNat es (view w'.kernel) js
        fun job => job.moves.getD [] := by
  obtain ⟨relocs, pushed⟩ := ready.dma.relocs
  have nonzero : size.toNat ≠ 0 := fun zero => some (BitVec.eq_of_toNat_eq zero)
  obtain ⟨w', run, leads, idle⟩ := syncDmaCopy_leads inOrder.patient.1 grants.cs
    (grants.patient_waitIdle inOrder) ready pushed dstOffset srcOffset nonzero w
  obtain ⟨es, history, gone⟩ := copyGone_of_pieces
    (syncMove (h.vaAt src srcOffset) (h.vaAt dst dstOffset)) leads (fun p => rfl)
    (fun p member => by
      have decode := decodeSyncIb_request relocs srcBelow dstBelow member
      show (decodeSyncIb (syncRequest _ _ _ _ p).ib).bind _ = _
      rw [decode]
      rfl)
    (@pieces_tiles 524287 0 size.toNat _ _) apart nonzero
    (fun p member => idle _ member (lists_dst pushed ready.dst _ _ _ _))
  exact ⟨w', es, _, run, history, gone⟩

end Sync

/-! ## Asynchronous copies -/

section Async

variable {h : Heap} {ctx : Addr} {dst src : BufPtr} {dstOffset srcOffset size : SizeT}

/-- An asynchronous copy below 2^40 passes its assertions and is accepted piece
by piece. -/
theorem asyncDmaCopy_leads (inOrder : drm.InOrder effect view patience)
    (taken : ∀ fd cs k, (drm.cs fd cs k).1 = 0) (ready : CopyReady h ctx dst src)
    {relocs : List CsRelocGem} (pushed : DmaRelocs h dst src relocs)
    (srcBelow : (h.vaAt src srcOffset).toNat + size.toNat ≤ 2 ^ 40)
    (dstBelow : (h.vaAt dst dstOffset).toNat + size.toNat ≤ 2 ^ 40) (w : CsWorld κ) :
    ∃ w', asyncDmaCopy drm h ctx dst dstOffset src srcOffset size w = .ok w' ∧
      Leads effect view (h.contexts.cell ctx).fd w.kernel
        ((dmaPieces size).map fun p => ⟨(h.contexts.cell ctx).fd,
          asyncRequest relocs (h.vaAt src srcOffset) (h.vaAt dst dstOffset) p⟩) w'.kernel ∧
      ∀ p ∈ dmaPieces size, PieceAllowed (h.vaAt src srcOffset) (h.vaAt dst dstOffset) p := by
  have allowed : ∀ p ∈ dmaPieces size,
      PieceAllowed (h.vaAt src srcOffset) (h.vaAt dst dstOffset) p := by
    intro p member
    obtain ⟨some, -, stop, -, -⟩ := dmaPieces_mem member
    rw [PieceAllowed, shift_eq_zero, shift_eq_zero, dmaPieces_address member (by omega),
      dmaPieces_address member (by omega)]
    omega
  have one : ∀ p ∈ dmaPieces size, ∀ w : CsWorld κ, ∃ r w',
      asyncDmaSend drm h ctx dst dstOffset src srcOffset (.ofNat 64 p.1) (.ofNat 64 p.2) w =
        .ok (r, w') ∧
      Leads effect view (h.contexts.cell ctx).fd w.kernel [⟨(h.contexts.cell ctx).fd,
        asyncRequest relocs (h.vaAt src srcOffset) (h.vaAt dst dstOffset) p⟩] w'.kernel := by
    intro p member w
    obtain ⟨srcShort, dstShort⟩ := allowed p member
    rw [← Heap.vaAt_add] at srcShort dstShort
    have spec := computeSendAsyncDmaReq_leads inOrder taken ready pushed
      ⟨(dmaPieces_mem member).2.2.2.2, srcShort, dstShort⟩ w
    rw [Heap.vaAt_add, Heap.vaAt_add] at spec
    exact spec
  obtain ⟨w', run, leads⟩ := foldlM_sendPiece_leads (dmaPieces size) w one
  refine ⟨w', ?_, leads, allowed⟩
  rw [asyncDmaCopy, dmaCopyLoop_eq]
  exact run

/-- When a fence on the destination returns, all submissions of an asynchronous
copy are gone. -/
theorem asyncDmaFence_gone (inOrder : drm.InOrder effect view patience) (grants : drm.Grants)
    (ready : CopyReady h ctx dst src) (some : size ≠ 0)
    (srcBelow : (h.vaAt src srcOffset).toNat + size.toNat ≤ 2 ^ 40)
    (dstBelow : (h.vaAt dst dstOffset).toNat + size.toNat ≤ 2 ^ 40)
    (apart : (h.vaAt src srcOffset).toNat + size.toNat ≤ (h.vaAt dst dstOffset).toNat ∨
      (h.vaAt dst dstOffset).toNat + size.toNat ≤ (h.vaAt src srcOffset).toNat)
    (dwords : Aligned (h.vaAt src srcOffset) (h.vaAt dst dstOffset) → 4 ∣ size.toNat)
    (w : CsWorld κ) :
    ∃ w₁ w' es js, asyncDmaCopy (drm.patient (retryRounds view patience)) h ctx dst dstOffset src
        srcOffset size w = .ok w₁ ∧
      asyncDmaFence (drm.patient (retryRounds view patience)) h dst w₁ = .ok w' ∧
      Rings.Run Job.ring effect (view w.kernel) es (view w'.kernel) ∧
      CopyGone (h.contexts.cell ctx).fd radeonCsRingDma (h.vaAt dst dstOffset).toNat
        (h.vaAt src srcOffset).toNat size.toNat es (view w'.kernel) js
        fun job => job.moves.getD [] := by
  obtain ⟨relocs, pushed⟩ := ready.dma.relocs
  have nonzero : size.toNat ≠ 0 := fun zero => some (BitVec.eq_of_toNat_eq zero)
  have patient := inOrder.patient.1
  obtain ⟨w₁, copy, sent, allowed⟩ :=
    asyncDmaCopy_leads patient grants.cs ready pushed srcBelow dstBelow w
  obtain ⟨ret, w', wait, -, waited, idle, source⟩ := computeBoWait_idle patient ready.dst w₁
  have done : ret = 0 := by
    rcases source with done | ⟨fd, handle, k, rfl⟩
    · exact done
    · exact grants.patient_waitIdle inOrder fd handle k
  have leads := sent.trans waited
  rw [List.append_nil] at leads
  have moves : (dmaPieces size).map
      (asyncMove (h.vaAt src srcOffset) (h.vaAt dst dstOffset)) =
        (dmaPieces size).map (syncMove (h.vaAt src srcOffset) (h.vaAt dst dstOffset)) := by
    refine List.map_congr_left fun p member => ?_
    obtain ⟨-, -, -, -, multiple, full⟩ := pieces_mem p member
    rw [Nat.sub_zero] at multiple
    have whole : (if Aligned (h.vaAt src srcOffset) (h.vaAt dst dstOffset)
        then p.2 / 4 * 4 else p.2) = p.2 := by
      split
      · rename_i aligned
        have := dwords aligned
        omega
      · rfl
    rw [asyncMove, syncMove, whole]
  have tiles : Tiles ((dmaPieces size).map
      (asyncMove (h.vaAt src srcOffset) (h.vaAt dst dstOffset))) (h.vaAt dst dstOffset).toNat
        (h.vaAt src srcOffset).toNat size.toNat := by
    rw [moves]
    exact @pieces_tiles 524287 0 size.toNat _ _
  obtain ⟨es, history, gone⟩ := copyGone_of_pieces
    (asyncMove (h.vaAt src srcOffset) (h.vaAt dst dstOffset)) leads (fun p => rfl)
    (fun p member => by
      have decode := decodeAsyncIb_request relocs member (by omega) (by omega) (allowed p member)
        (by omega)
      show (decodeAsyncIb (asyncRequest _ _ _ p).ib).map _ = _
      rw [decode]
      rfl)
    tiles apart nonzero
    (fun p member => by
      have here := idle done 0 ready.dst.positive _ member
      rw [BufPtr.add_zero] at here
      exact here (lists_dst pushed ready.dst _ _ _ _))
  refine ⟨w₁, w', es, _, copy, ?_, history, gone⟩
  simp only [asyncDmaFence, computeSendDmaFence, wait, ok_bind]

end Async

end RadeonsiCompute
