import RadeonsiCompute.Cs.Submit

/-!
# DMA copies, as the code computes them

`compute_send_sync_dma_req` and `compute_send_async_dma_req` of `computesi.c`,
and the loops of `ComputeInterface::syncDMACopy` and `asyncDMACopy` over them.
The packets are computed in the machine types: a `size_t` expression with
`int` flags in it is sign-extended, `or`ed in 64 bits, and cut to an
`unsigned`. The pointers are buffers, so the assertions that they are not null
hold.
-/

namespace RadeonsiCompute

open Lib

/-- A `size_t` stored in an `unsigned`. -/
def toUnsigned (x : SizeT) : Dword := x.setWidth 32

/-- An `int` next to a `size_t`. -/
def intToSize (x : Dword) : SizeT := x.signExtend 64

/-! ## Packets -/

def pkt3CpDmaCpSync : Dword := 1#32 <<< 31

def pkt3CpDmaEngine (x : Dword) : Dword := x <<< 27

def pkt3CpDmaCmdRawWait : Dword := 1#32 <<< 30

/-- What `compute_send_sync_dma_req` puts in `buf`. -/
def syncDmaBuf (srcVa dstVa size : SizeT) (syncFlag rawWaitFlag usePfpEngine : Bool) :
    List Dword :=
  [pkt3c pkt3CpDma 4 0,
    toUnsigned (srcVa &&& 0xFFFFFFFF#64),
    toUnsigned (intToSize ((if syncFlag then pkt3CpDmaCpSync else 0) |||
      pkt3CpDmaEngine (if usePfpEngine then 1 else 0)) ||| (srcVa >>> 32 &&& 0xFFFF#64)),
    toUnsigned (dstVa &&& 0xFFFFFFFF#64),
    toUnsigned (dstVa >>> 32 &&& 0xffff#64),
    toUnsigned (intToSize (if rawWaitFlag then pkt3CpDmaCmdRawWait else 0) ||| size)]

/-- `DMA_PACKET`. -/
def dmaPacket (cmd subCmd : Dword) (n : SizeT) : Dword :=
  toUnsigned (intToSize ((cmd &&& 0xF#32) <<< 28 ||| (subCmd &&& 0xFF#32) <<< 20) |||
    (n &&& 0xFFFFF#64) <<< 0)

def dmaPacketCopy : Dword := 0x3

/-- What `compute_send_async_dma_req` puts in `buf`. -/
def asyncDmaBuf (srcVa dstVa size : SizeT) : List Dword :=
  [if srcVa &&& 3#64 = 0 ∧ dstVa &&& 3#64 = 0 then dmaPacket dmaPacketCopy 0x00 (size / 4#64)
    else dmaPacket dmaPacketCopy 0x40 size,
    toUnsigned (dstVa &&& 0xFFFFFFFF#64),
    toUnsigned (srcVa &&& 0xFFFFFFFF#64),
    toUnsigned (dstVa >>> 32 &&& 0xFF#64 ||| intToSize (0#32 <<< 8)),
    toUnsigned (srcVa >>> 32 &&& 0xFF#64 ||| intToSize (0#32 <<< 8))]

/-! ## Requests -/

section Requests

variable {κ : Type} (drm : CsDrm κ) (h : Heap) (ctx : Addr) (dstBo : BufPtr) (dstOffset : SizeT)
  (srcBo : BufPtr) (srcOffset size : SizeT)

def computeSendSyncDmaReq (syncFlag rawWaitFlag usePfpEngine : Bool) (w : CsWorld κ) :
    Except Fault (Int × CsWorld κ) := do
  assertThat (size ≠ 0) "size"
  assertThat (size &&& ((1#64 <<< 21) - 1) = size) "(size & ((1<<21)-1)) == size"
  let src ← h.loadBuffer srcBo
  let dst ← h.loadBuffer dstBo
  let srcVa := .ofNat 64 src.va + srcOffset
  let dstVa := .ofNat 64 dst.va + dstOffset
  let relocs ← computePushReloc h [] srcBo
  let relocs ← computePushReloc h relocs dstBo
  let c ← h.contexts.load ctx
  let (r, w) := w.submit drm c.fd (radeonCs radeonCsRingCompute relocs
    (syncDmaBuf srcVa dstVa size syncFlag rawWaitFlag usePfpEngine) 1)
  -- only the last piece of a copy asks to wait
  if syncFlag then do
    let (_, w) ← computeBoWait drm h dstBo w
    let (_, w) ← computeBoWait drm h srcBo w
    .ok (r, w)
  else .ok (r, w)

def computeSendAsyncDmaReq (w : CsWorld κ) : Except Fault (Int × CsWorld κ) := do
  assertThat (size ≠ 0) "size"
  assertThat (size &&& ((1#64 <<< 21) - 1) = size) "(size & ((1<<21)-1)) == size"
  let src ← h.loadBuffer srcBo
  let dst ← h.loadBuffer dstBo
  let srcVa := .ofNat 64 src.va + srcOffset
  let dstVa := .ofNat 64 dst.va + dstOffset
  assertThat (srcVa >>> 40 = 0) "(src_va >> 40) == 0"
  assertThat (dstVa >>> 40 = 0) "(dst_va >> 40) == 0"
  let relocs ← computePushReloc h [] srcBo
  let relocs ← computePushReloc h relocs dstBo
  let c ← h.contexts.load ctx
  .ok (w.submit drm c.fd (radeonCs radeonCsRingDma relocs (asyncDmaBuf srcVa dstVa size) 1))

end Requests

/-! ## Whole copies -/

/-- `std::min`. -/
def stdMin (a b : SizeT) : SizeT := if b < a then b else a

/-- `fragmentSize` of the two copy loops. -/
def dmaFragmentSize : SizeT := 512 * 1024

theorem dmaCopyLoop_decreases {size i : SizeT} (more : i < size) :
    (size - (i + stdMin dmaFragmentSize (size - i))).toNat < (size - i).toNat := by
  unfold stdMin dmaFragmentSize
  split <;> bv_omega

/-- The loop of `syncDMACopy` and `asyncDMACopy` from `i` on. Neither looks at
what a request returns. -/
def dmaCopyLoop {κ : Type} (send : SizeT → SizeT → CsWorld κ → Except Fault (Int × CsWorld κ))
    (size i : SizeT) (w : CsWorld κ) : Except Fault (CsWorld κ) :=
  if _more : i < size then do
    let curSize := stdMin dmaFragmentSize (size - i)
    let (_, w) ← send i curSize w
    dmaCopyLoop send size (i + curSize) w
  else .ok w
  termination_by (size - i).toNat
  decreasing_by exact dmaCopyLoop_decreases _more

section Copies

variable {κ : Type} (drm : CsDrm κ) (h : Heap) (ctx : Addr) (dst : BufPtr) (dstOffset : SizeT)
  (src : BufPtr) (srcOffset size : SizeT)

/-- The request of `syncDMACopy` at `i`. -/
def syncDmaSend (i curSize : SizeT) : CsWorld κ → Except Fault (Int × CsWorld κ) :=
  computeSendSyncDmaReq drm h ctx dst (i + dstOffset) src (i + srcOffset) curSize
    (decide (i + curSize ≥ size)) (decide (i = 0)) true

def syncDmaCopy (w : CsWorld κ) : Except Fault (CsWorld κ) :=
  dmaCopyLoop (syncDmaSend drm h ctx dst dstOffset src srcOffset size) size 0 w

/-- The request of `asyncDMACopy` at `i`. -/
def asyncDmaSend (i curSize : SizeT) : CsWorld κ → Except Fault (Int × CsWorld κ) :=
  computeSendAsyncDmaReq drm h ctx dst (i + dstOffset) src (i + srcOffset) curSize

def asyncDmaCopy (w : CsWorld κ) : Except Fault (CsWorld κ) :=
  dmaCopyLoop (asyncDmaSend drm h ctx dst dstOffset src srcOffset) size 0 w

end Copies

end RadeonsiCompute
