import RadeonsiCompute.Dma.Code
import RadeonsiCompute.Lib.Moves

/-!
# What a copy hands to the driver

The copy loops send one request for each piece of 512 KiB. `dmaCopyLoop_eq`
says so on naturals, and the two specifications say what becomes of one
request: when its assertions hold it adds one submission, whatever the driver
answers.
-/

namespace RadeonsiCompute

open Lib

section Loop

variable {κ : Type} {send : SizeT → SizeT → CsWorld κ → Except Fault (Int × CsWorld κ)}

/-- The pieces of a copy of `size` bytes. -/
def dmaPieces (size : SizeT) : List (Nat × Nat) := pieces 524287 0 size.toNat

/-- The request for one piece. -/
def sendPiece (send : SizeT → SizeT → CsWorld κ → Except Fault (Int × CsWorld κ))
    (w : CsWorld κ) (p : Nat × Nat) : Except Fault (CsWorld κ) := do
  let (_, w) ← send (.ofNat 64 p.1) (.ofNat 64 p.2) w
  .ok w

/-- The step of the loop, on naturals. -/
theorem stdMin_toNat {size i : SizeT} (more : i < size) :
    (stdMin dmaFragmentSize (size - i)).toNat = min (524287 + 1) (size.toNat - i.toNat) ∧
      (i + stdMin dmaFragmentSize (size - i)).toNat =
        i.toNat + min (524287 + 1) (size.toNat - i.toNat) := by
  have fragment : dmaFragmentSize = 524288#64 := by decide
  unfold stdMin
  rw [fragment]
  split <;> constructor <;> bv_omega

/-- The loop sends the pieces in order. -/
theorem dmaCopyLoop_eq (size i : SizeT) (w : CsWorld κ) : dmaCopyLoop send size i w =
    (pieces 524287 i.toNat (size.toNat - i.toNat)).foldlM (sendPiece send) w := by
  induction i, w using dmaCopyLoop.induct size with
  | case1 i w more curSize ih =>
      obtain ⟨step, next⟩ := stdMin_toNat more
      have left : size.toNat - i.toNat ≠ 0 := by bv_omega
      rw [dmaCopyLoop, dif_pos more, pieces_pos left, List.foldlM_cons, sendPiece, ← step,
        BitVec.ofNat_toNat, BitVec.ofNat_toNat, BitVec.setWidth_eq, BitVec.setWidth_eq]
      dsimp only
      cases send i (stdMin dmaFragmentSize (size - i)) w with
      | error e => rfl
      | ok reply =>
          simp only [ok_bind]
          rw [ih, next, step, Nat.sub_add_eq]
  | case2 i w done =>
      have nothing : size.toNat - i.toNat = 0 := by bv_omega
      rw [dmaCopyLoop, dif_neg done, nothing, pieces_zero]
      rfl

/-- A copy whose requests each add one submission adds one for each piece. -/
theorem foldlM_sendPiece {request : Nat × Nat → RadeonCs} (ps : List (Nat × Nat)) :
    ∀ w : CsWorld κ, (∀ p ∈ ps, ∀ w : CsWorld κ, ∃ r w',
      send (.ofNat 64 p.1) (.ofNat 64 p.2) w = .ok (r, w') ∧
        w'.submitted = w.submitted ++ [request p]) →
      ∃ w', ps.foldlM (sendPiece send) w = .ok w' ∧
        w'.submitted = w.submitted ++ ps.map request := by
  induction ps with
  | nil => intro w _; exact ⟨w, rfl, (List.append_nil _).symm⟩
  | cons p ps ih =>
      intro w sends
      obtain ⟨r, w₁, run, added⟩ := sends p List.mem_cons_self w
      obtain ⟨w₂, rest, later⟩ := ih w₁ fun p' member => sends p' (List.mem_cons_of_mem _ member)
      refine ⟨w₂, ?_, ?_⟩
      · rw [List.foldlM_cons, sendPiece, run]
        exact rest
      · rw [later, added, List.map_cons, List.append_assoc]
        rfl

/-- A copy that returned sent a request for each piece. -/
theorem of_foldlM_sendPiece (ps : List (Nat × Nat)) : ∀ w w' : CsWorld κ,
    ps.foldlM (sendPiece send) w = .ok w' → ∀ p ∈ ps, ∃ w r w',
      send (.ofNat 64 p.1) (.ofNat 64 p.2) w = .ok (r, w') := by
  induction ps with
  | nil => intro w w' _ p member; exact absurd member (by simp)
  | cons p ps ih =>
      intro w w' run p' member
      rw [List.foldlM_cons] at run
      obtain ⟨w₁, first, rest⟩ := bind_eq_ok.mp run
      rcases List.mem_cons.mp member with rfl | later
      · obtain ⟨⟨r, w₂⟩, sent, -⟩ := bind_eq_ok.mp first
        exact ⟨w, r, w₂, sent⟩
      · exact ih w₁ w' rest p' later

end Loop

/-! ## One request -/

section Requests

variable {κ : Type} (drm : CsDrm κ) {h : Heap} {ctx : Addr} {dstBo srcBo : BufPtr}

/-- The context and both buffers of a request can be used. -/
structure DmaReady (h : Heap) (ctx : Addr) (dstBo srcBo : BufPtr) : Prop where
  ctxLive : ctx ∈ h.contexts.live
  dst : h.Intact dstBo
  src : h.Intact srcBo

/-- The relocations of a request: the fragments of the source, then those of
the destination. -/
structure DmaRelocs (h : Heap) (dstBo srcBo : BufPtr) (relocs : List CsRelocGem) : Prop where
  pushed : ∃ first, computePushReloc h [] srcBo = .ok first ∧
    computePushReloc h first dstBo = .ok relocs

theorem DmaReady.relocs (ready : DmaReady h ctx dstBo srcBo) :
    ∃ relocs, DmaRelocs h dstBo srcBo relocs := by
  obtain ⟨first, pushSrc⟩ := ready.src.pushReloc []
  obtain ⟨relocs, pushDst⟩ := ready.dst.pushReloc first
  exact ⟨relocs, first, pushSrc, pushDst⟩

/-- The address of byte `offset` of a buffer. -/
def Heap.vaAt (h : Heap) (bo : BufPtr) (offset : SizeT) : SizeT :=
  .ofNat 64 (h.buffer bo).va + offset

theorem Heap.oneBuffer_vaAt (total : Nat) (offset : SizeT) :
    (Heap.oneBuffer total).vaAt ⟨0, 0⟩ offset = 4096 + offset := by
  rw [Heap.vaAt, Heap.oneBuffer_va]
  rfl

/-- The assertions on the size of a request. -/
def RequestSize (size : SizeT) : Prop := size ≠ 0 ∧ size &&& ((1#64 <<< 21) - 1) = size

/-- The sizes that pass are those of 1 to 2^21 - 1 bytes. -/
theorem requestSize_iff {size : SizeT} :
    RequestSize size ↔ 0 < size.toNat ∧ size.toNat < 2 ^ 21 := by
  have ones : (((1#64 <<< 21) - 1 : SizeT)).toNat = 2 ^ 21 - 1 := by decide
  have masked : size &&& ((1#64 <<< 21) - 1) = size ↔ size.toNat < 2 ^ 21 := by
    rw [← BitVec.toNat_inj, BitVec.toNat_and, ones, Nat.and_two_pow_sub_one_eq_mod,
      Nat.mod_eq_iff_lt (by decide)]
  have nonzero : size ≠ 0 ↔ 0 < size.toNat := by bv_omega
  rw [RequestSize, masked, nonzero]

/-- A synchronous request of a fair size adds one submission. -/
theorem computeSendSyncDmaReq_spec (ready : DmaReady h ctx dstBo srcBo) {relocs : List CsRelocGem}
    (pushed : DmaRelocs h dstBo srcBo relocs) {size : SizeT} (fair : RequestSize size)
    (dstOffset srcOffset : SizeT) (syncFlag rawWaitFlag usePfpEngine : Bool) (w : CsWorld κ) :
    ∃ r w', computeSendSyncDmaReq drm h ctx dstBo dstOffset srcBo srcOffset size syncFlag
        rawWaitFlag usePfpEngine w = .ok (r, w') ∧
      w'.submitted = w.submitted ++ [radeonCs radeonCsRingCompute relocs
        (syncDmaBuf (h.vaAt srcBo srcOffset) (h.vaAt dstBo dstOffset) size syncFlag rawWaitFlag
          usePfpEngine) 1] := by
  obtain ⟨first, pushSrc, pushDst⟩ := pushed.pushed
  simp only [computeSendSyncDmaReq, assertThat_ok fair.1, assertThat_ok fair.2, ok_bind,
    Heap.loadBuffer_eq ready.src.self, Heap.loadBuffer_eq ready.dst.self, pushSrc, pushDst,
    Store.load_eq ready.ctxLive]
  generalize answer : CsWorld.submit drm w _ _ = reply
  obtain ⟨r, w₁⟩ := reply
  have added : w₁.submitted = _ := (congrArg (fun x => x.2.submitted) answer).symm
  cases syncFlag with
  | false => exact ⟨r, w₁, rfl, added⟩
  | true =>
      obtain ⟨r₂, w₂, wait₂, same₂⟩ := ready.dst.boWait drm w₁
      obtain ⟨r₃, w₃, wait₃, same₃⟩ := ready.src.boWait drm w₂
      refine ⟨r, w₃, ?_, by rw [same₃, same₂]; exact added⟩
      simp only [if_true, wait₂, wait₃, ok_bind]

/-- The assertions of an asynchronous request. -/
structure AsyncAllowed (h : Heap) (dstBo : BufPtr) (dstOffset : SizeT) (srcBo : BufPtr)
    (srcOffset size : SizeT) : Prop where
  size : RequestSize size
  src : h.vaAt srcBo srcOffset >>> 40 = 0
  dst : h.vaAt dstBo dstOffset >>> 40 = 0

/-- An asynchronous request that passes its assertions adds one submission. -/
theorem computeSendAsyncDmaReq_spec (ready : DmaReady h ctx dstBo srcBo)
    {relocs : List CsRelocGem} (pushed : DmaRelocs h dstBo srcBo relocs)
    {dstOffset srcOffset size : SizeT}
    (allowed : AsyncAllowed h dstBo dstOffset srcBo srcOffset size) (w : CsWorld κ) :
    ∃ r w', computeSendAsyncDmaReq drm h ctx dstBo dstOffset srcBo srcOffset size w =
        .ok (r, w') ∧
      w'.submitted = w.submitted ++ [radeonCs radeonCsRingDma relocs
        (asyncDmaBuf (h.vaAt srcBo srcOffset) (h.vaAt dstBo dstOffset) size) 1] := by
  obtain ⟨first, pushSrc, pushDst⟩ := pushed.pushed
  have src := allowed.src
  have dst := allowed.dst
  unfold Heap.vaAt at src dst
  simp only [computeSendAsyncDmaReq, assertThat_ok allowed.size.1, assertThat_ok allowed.size.2,
    ok_bind, Heap.loadBuffer_eq ready.src.self, Heap.loadBuffer_eq ready.dst.self,
    assertThat_ok src, assertThat_ok dst, pushSrc, pushDst, Store.load_eq ready.ctxLive]
  exact ⟨_, _, rfl, rfl⟩

/-- An asynchronous request that returned passed its assertions. -/
theorem asyncAllowed_of_ok (ready : DmaReady h ctx dstBo srcBo)
    {dstOffset srcOffset size : SizeT} {w w' : CsWorld κ} {r : Int}
    (run : computeSendAsyncDmaReq drm h ctx dstBo dstOffset srcBo srcOffset size w =
      .ok (r, w')) : AsyncAllowed h dstBo dstOffset srcBo srcOffset size := by
  obtain ⟨_, nonzero, run⟩ := bind_eq_ok.mp run
  obtain ⟨_, masked, run⟩ := bind_eq_ok.mp run
  simp only [Heap.loadBuffer_eq ready.src.self, Heap.loadBuffer_eq ready.dst.self, ok_bind] at run
  obtain ⟨_, src, run⟩ := bind_eq_ok.mp run
  obtain ⟨_, dst, -⟩ := bind_eq_ok.mp run
  exact ⟨⟨assertThat_eq_ok.mp nonzero, assertThat_eq_ok.mp masked⟩, assertThat_eq_ok.mp src,
    assertThat_eq_ok.mp dst⟩

end Requests

end RadeonsiCompute
