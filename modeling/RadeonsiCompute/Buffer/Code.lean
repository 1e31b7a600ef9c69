import RadeonsiCompute.Pool.Code

/-!
# Buffer allocation and release, as the code computes them

`compute_alloc_gpu_buffer` and `compute_free_gpu_buffer` of `computesi.c` with
everything they call. The kernel driver behind `drmCommandWriteRead` and
`drmIoctl` is a parameter: a state of any type and one function for each
request, so that a result about these functions holds for every behaviour of
the driver its hypotheses leave open.
-/

namespace RadeonsiCompute

open Lib

/-- `struct drm_radeon_gem_create`, as the caller fills it. -/
structure GemCreate where
  size : Nat
  alignment : Nat
  initialDomain : Nat
  deriving DecidableEq, Repr

/-- `struct drm_radeon_gem_va`, as the caller fills it. -/
structure GemVa where
  handle : Nat
  vmId : Nat
  operation : Nat
  flags : Nat
  offset : Nat
  deriving DecidableEq, Repr

/-- The driver: each request takes the file descriptor and the arguments.
`gemCreate` answers with a handle or fails; `gemVa` answers with the return
value of the request and what it left in `operation`. -/
structure Drm (κ : Type) where
  gemCreate : Nat → GemCreate → κ → Option Nat × κ
  gemVa : Nat → GemVa → κ → (Int × Nat) × κ
  gemClose : Nat → Nat → κ → κ

structure World (κ : Type) where
  heap : Heap
  kernel : κ

def radeonVaMap : Nat := 1
def radeonVaResultOk : Nat := 0
def radeonVaResultError : Nat := 1
def radeonVaResultVaExist : Nat := 2
def radeonVmPageReadable : Nat := 1 <<< 1
def radeonVmPageWriteable : Nat := 1 <<< 2
def radeonVmPageSnooped : Nat := 1 <<< 4

/-- `FRAGMENT_SIZE`. -/
@[irreducible] def fragmentSize : Nat := 64 * 1024 * 1024

theorem fragmentSize_eq : fragmentSize = 67108864 := by
  unfold fragmentSize
  rfl

variable {κ : Type} (drm : Drm κ)

/-- The loop of `compute_vm_map` over the fragments from index `i`. -/
def vmMapLoop (fd : Nat) (bo : BufPtr) (vmId flags : Nat) :
    Nat → Nat → World κ → Except Fault (Int × World κ)
  | 0, _, w => .ok (0, w)
  | count + 1, i, w => do
      let b ← w.heap.loadBuffer (bo.add i)
      let va : GemVa :=
        { handle := b.handle, vmId, operation := radeonVaMap,
          flags := flags ||| radeonVmPageReadable ||| radeonVmPageWriteable, offset := b.va }
      let ((r, operation), kernel) := drm.gemVa fd va w.kernel
      let w := { w with kernel }
      -- a request that fails with another result counts as granted
      if r ≠ 0 ∧ operation = radeonVaResultError then .ok (-1, w)
      else if operation = radeonVaResultVaExist then .ok (-1, w)
      else vmMapLoop fd bo vmId flags count (i + 1) w

def computeVmMap (w : World κ) (ctx : Addr) (bo : BufPtr) (vmId flags : Nat) :
    Except Fault (Int × World κ) := do
  let b ← w.heap.loadBuffer bo
  let c ← w.heap.contexts.load ctx
  vmMapLoop drm c.fd bo vmId flags b.fragmentNumber 0 w

/-- `compute_vm_unmap` returns before it does anything. -/
def computeVmUnmap (w : World κ) (_vmAddr _handle _vmId : Nat) : Int × World κ := (0, w)

def computeFreeGpuBuffer (w : World κ) (bo : BufPtr) : Except Fault (World κ) := do
  let b ← w.heap.loadBuffer bo
  let w ← if b.va ≠ 0 then do
      let heap ← computePoolFree w.heap b.ctx bo
      .ok (computeVmUnmap { w with heap } b.va b.handle 0).2
    else .ok w
  let c ← w.heap.contexts.load b.ctx
  -- the handles of the later fragments are not closed
  let kernel := drm.gemClose c.fd b.handle w.kernel
  let heap ← w.heap.freeBuffer bo
  .ok { heap, kernel }

/-- `((int)((size + 4095) / 4096)) * 4096`, stored in a `uint64_t`. -/
def vaSizeOf (size : Nat) : Nat :=
  toU64 (toInt32 (toInt32 (add64 size 4095 / 4096 : Nat) * 4096))

/-- The number of values of an `unsigned` index. -/
@[irreducible] def indexRange : Nat := 2 ^ 32

theorem indexRange_eq : indexRange = 2 ^ 32 := by
  unfold indexRange
  rfl

/-- The loop of `compute_alloc_fragmented_buffer` from index `i`. The index is
a 32-bit `unsigned` compared with a `size_t`: with 2^32 fragments or more it
comes back to zero and the loop does not end. `none` is the `NULL` returned
when the driver refuses a fragment. -/
def fragmentLoop (fd : Nat) (ctx : Addr) (wholeSize domain : Nat) (alignment : Nat)
    (fragmentNum : Nat) (buf : BufPtr) :
    Nat → Nat → Nat → World κ → Except Fault (Option Nat × World κ)
  | 0, _, _, _ => .error .diverges
  | fuel + 1, i, sizeAlloced, w =>
      if i < fragmentNum then
        let size :=
          if add64 sizeAlloced fragmentSize ≤ wholeSize then fragmentSize
          else sub64 wholeSize sizeAlloced
        let args : GemCreate := { size, alignment, initialDomain := domain }
        match drm.gemCreate fd args w.kernel with
        | (none, kernel) => .ok (none, { w with kernel })
        | (some handle, kernel) => do
            let heap ← w.heap.modifyBuffer (buf.add i) fun b =>
              { b with
                fragmentNumber := if i = 0 then fragmentNum % indexRange else 0
                ctx, alignment := args.alignment, handle, domain := args.initialDomain
                flags := 0, size, vaSize := vaSizeOf size }
            fragmentLoop fd ctx wholeSize domain alignment fragmentNum buf fuel
              ((i + 1) % indexRange) (add64 sizeAlloced size) { heap, kernel }
      else .ok (some sizeAlloced, w)

def computeAllocFragmentedBuffer (libc : Libc) (w : World κ) (ctx : Addr) (wholeSize : Nat)
    (domain : Nat) (alignment : Int) : Except Fault (Option BufPtr × World κ) := do
  -- rounded up, but the sum wraps for a size near 2^64
  let fragmentNum := sub64 (add64 wholeSize fragmentSize) 1 / fragmentSize
  let (buf, heap) ← w.heap.callocBuffers libc fragmentNum
  let c ← heap.contexts.load ctx
  let (result, w) ← fragmentLoop drm c.fd ctx wholeSize domain (toU64 alignment) fragmentNum buf
    indexRange 0 0 { w with heap }
  match result with
  | none => .ok (none, w)
  | some sizeAlloced =>
      if wholeSize = sizeAlloced then .ok (some buf, w)
      else .error (.assertion "whole_size == size_alloced")

/-- `compute_alloc_gpu_buffer` hands the result of the fragment loop on without
looking at it: a `NULL` is dereferenced by `compute_pool_alloc`. -/
def computeAllocGpuBuffer (libc : Libc) (w : World κ) (ctx : Addr) (size domain : Nat)
    (alignment : Int) : Except Fault (Option BufPtr × World κ) := do
  let (buf, w) ← computeAllocFragmentedBuffer drm libc w ctx size domain alignment
  match buf with
  | none => .error .nullDeref
  | some bo => do
      let heap ← computePoolAlloc libc w.heap ctx bo
      let (r, w) ← computeVmMap drm { w with heap } ctx bo 0 radeonVmPageSnooped
      if r ≠ 0 then do
        let heap ← computePoolFree w.heap ctx bo
        let heap ← heap.modifyBuffer bo fun b => { b with va := 0 }
        let w ← computeFreeGpuBuffer drm { w with heap } bo
        .ok (none, w)
      else .ok (some bo, w)

end RadeonsiCompute
