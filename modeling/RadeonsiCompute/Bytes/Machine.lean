import RadeonsiCompute.Buffer.Mapped
import RadeonsiCompute.Lib.Arrays
import RadeonsiCompute.Ring.Finished

/-!
# A caller and the memory behind its buffers

The calls of the library over one state: the caller with its pool, the bytes of
the driver's objects, and the rings. The host reaches an object through a
mapping of its handle, the hardware through the addresses it is mapped at. The
labels of the steps are the operations on named arrays that the calls are meant
to be.
-/

namespace RadeonsiCompute

open Lib

/-- The driver and the hardware the library runs on, for the process behind
descriptor `fd`. -/
structure Platform (κ κ' : Type) where
  drm : Drm κ
  view : Nat → κ → Kernel
  csDrm : CsDrm κ'
  rings : κ' → Rings Job (Nat → Byte)
  effect : Job → (Nat → Byte) → (Nat → Byte) → Prop
  fd : Nat
  patience : Nat
  honest : drm.Honest view
  inOrder : csDrm.InOrder effect rings patience
  grants : csDrm.Grants
  makes : MakesCopies effect fd
  isolated : Isolated effect fd

/-- The driver as it looks through the retry loop. -/
abbrev Platform.patientDrm {κ κ' : Type} (p : Platform κ κ') : CsDrm κ' :=
  p.csDrm.patient (retryRounds p.rings p.patience)

/-- At the addresses an object is mapped at, its bytes are seen. -/
def Kernel.Shows (k : Kernel) (vram : Nat → Nat → Byte) (mem : Nat → Byte) : Prop :=
  ∀ m ∈ k.mappings, ∀ o < m.size, mem (m.va + o) = vram m.handle o

structure Machine (κ κ' : Type) where
  client : Client κ
  vram : Nat → Nat → Byte
  cs : CsWorld κ'

/-- The bytes of a buffer, in order. -/
def Heap.contents (h : Heap) (vram : Nat → Nat → Byte) (bo : BufPtr) : List Byte :=
  (List.range (h.totalSize bo)).map (h.flatByte bo ⟨vram, fun _ => 0, 0⟩)

/-- The caller's block of a transfer. -/
def CopyMem.ofData (vram : Nat → Nat → Byte) (data : List Byte) : CopyMem where
  vram := vram
  host i := data.getD i 0
  hostSize := data.length

namespace Machine

variable {κ κ' : Type} (p : Platform κ κ') (ctx : Addr)

/-- The caller's heap. -/
abbrev heap (s : Machine κ κ') : Heap := s.client.world.heap

/-- What the driver keeps for the descriptor. -/
def kernel (s : Machine κ κ') : Kernel := p.view p.fd s.client.world.kernel

/-- What the hardware sees at the caller's addresses. -/
def mem (s : Machine κ κ') : Nat → Byte := (p.rings s.cs.kernel).state

/-- The descriptor has nothing in the rings. -/
def Idle (s : Machine κ κ') : Prop := ∀ job ∈ (p.rings s.cs.kernel).pending, job.fd ≠ p.fd

/-- Between two states the rings went on without a submission of the
descriptor, and the hardware sees what is mapped then. -/
structure Waits (s s' : Machine κ κ') : Prop where
  pending : ∀ job ∈ (p.rings s'.cs.kernel).pending, job.fd = p.fd →
    job ∈ (p.rings s.cs.kernel).pending
  seen : (s'.kernel p).Shows s'.vram (s'.mem p)

/-- Objects that stay open keep their bytes. -/
def KeepsObjects (s s' : Machine κ κ') : Prop :=
  ∀ x ∈ (s.kernel p).handles, x ∈ (s'.kernel p).handles → s'.vram x = s.vram x

/-- A transfer of `len` bytes that lies in the buffer and is one the copy
functions get right. -/
structure TransferAsked (s : Machine κ κ') (bo : BufPtr) (offset len : Nat) : Prop where
  held : bo ∈ s.client.held
  some : 0 < len
  inside : offset + len ≤ s.heap.totalSize bo
  straight : Straight (s.heap.totalSize bo) offset len

/-- A copy within the two buffers, between parts that do not overlap, below
`limit`. -/
structure CopyAsked (s : Machine κ κ') (limit : Nat) (dst : BufPtr) (dstOffset : SizeT)
    (src : BufPtr) (srcOffset size : SizeT) : Prop where
  dstHeld : dst ∈ s.client.held
  srcHeld : src ∈ s.client.held
  some : size ≠ 0
  dstInside : dstOffset.toNat + size.toNat ≤ s.heap.totalSize dst
  srcInside : srcOffset.toNat + size.toNat ≤ s.heap.totalSize src
  apart : dst = src → dstOffset.toNat + size.toNat ≤ srcOffset.toNat ∨
    srcOffset.toNat + size.toNat ≤ dstOffset.toNat
  dstBelow : (s.heap.buffer dst).va + dstOffset.toNat + size.toNat ≤ limit
  srcBelow : (s.heap.buffer src).va + srcOffset.toNat + size.toNat ≤ limit

/-- A call that returned. -/
inductive Step : Machine κ κ' → ArrayOp BufPtr Byte → Machine κ κ' → Prop
  | alloc {s s' libc size domain alignment bo world} :
      s.client.Legal ctx (.alloc libc size domain alignment) →
      computeAllocGpuBuffer p.drm libc s.client.world ctx size domain alignment =
        .ok (some bo, world) →
      s'.client = { world, held := insert bo s.client.held } →
      s.KeepsObjects p s' → s.Waits p s' → Step s (.create bo size) s'
  | refused {s s' libc size domain alignment world} :
      s.client.Legal ctx (.alloc libc size domain alignment) →
      computeAllocGpuBuffer p.drm libc s.client.world ctx size domain alignment =
        .ok (none, world) →
      s'.client = { s.client with world } →
      s.KeepsObjects p s' → s.Waits p s' → Step s .refuse s'
  | free {s s' bo world} : bo ∈ s.client.held →
      computeFreeGpuBuffer p.drm s.client.world bo = .ok world →
      s'.client = { world, held := s.client.held.erase bo } →
      s.KeepsObjects p s' → s.Waits p s' → Step s (.drop bo) s'
  | toGpu {s s' env bo offset data m} : s.TransferAsked bo offset data.length →
      computeCopyToGpu env s.heap bo offset data.length (.ofData s.vram data) = (.ret 0, m) →
      s'.client = s.client → s'.vram = m.vram → s.Waits p s' →
      Step s (.write bo offset data) s'
  | fromGpu {s s' env bo offset size host m} : s.TransferAsked bo offset size →
      computeCopyFromGpu env s.heap bo offset size ⟨s.vram, host, size⟩ = (.ret 0, m) →
      s'.client = s.client → s'.vram = m.vram → s.Waits p s' →
      Step s (.read bo offset ((List.range size).map m.host)) s'
  | syncCopy {s s' dst dstOffset src srcOffset size} :
      s.CopyAsked (2 ^ 48) dst dstOffset src srcOffset size →
      syncDmaCopy p.patientDrm s.heap ctx dst dstOffset src srcOffset
        size s.cs = .ok s'.cs →
      s'.client = s.client → (s'.kernel p).Shows s'.vram (s'.mem p) →
      Step s (.copy dst dstOffset.toNat src srcOffset.toNat size.toNat) s'
  | asyncCopy {s s' dst dstOffset src srcOffset size w} :
      s.CopyAsked (2 ^ 40) dst dstOffset src srcOffset size →
      (Aligned (s.heap.vaAt src srcOffset) (s.heap.vaAt dst dstOffset) → 4 ∣ size.toNat) →
      asyncDmaCopy p.patientDrm s.heap ctx dst dstOffset src srcOffset
        size s.cs = .ok w →
      asyncDmaFence p.patientDrm s.heap dst w = .ok s'.cs →
      s'.client = s.client → (s'.kernel p).Shows s'.vram (s'.mem p) →
      Step s (.copy dst dstOffset.toNat src srcOffset.toNat size.toNat) s'

/-- What the caller sees of the memory. -/
def arrays (s : Machine κ κ') : Arrays BufPtr Byte := fun bo =>
  if bo ∈ s.client.held then some (s.heap.contents s.vram bo) else none

end Machine

/-- A process with a new context and nothing in the rings, and its calls. -/
def machineSystem {κ κ' : Type} (p : Platform κ κ') (ctx : Addr) :
    TSys (Machine κ κ') (ArrayOp BufPtr Byte) where
  init s := s.client.held = ∅ ∧ (s.heap.contexts.cell ctx).fd = p.fd ∧ s.Idle p ∧
    (s.kernel p).Shows s.vram (s.mem p) ∧ ∃ libc h reservedMem, ctx ∈ h.contexts.live ∧
      reservedMem + 4096 < 2 ^ 64 ∧ createVmPool libc h ctx reservedMem = .ok s.heap
  step := Machine.Step p ctx

end RadeonsiCompute
