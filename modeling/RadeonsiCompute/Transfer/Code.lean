import RadeonsiCompute.Buffer.Code
import RadeonsiCompute.Lib.Moves

/-!
# Host transfers, as the code computes them

`compute_copy_to_gpu` and `compute_copy_from_gpu` of `computesi.c` and the
functions they call for one fragment. The two directions differ in the
arguments of one `memcpy` and in nothing else, so each is the common body at
its own `memcpy`. A call ends with a return value, a failed assertion or a
fault, and in each case leaves some memory behind.
-/

namespace RadeonsiCompute

open Lib

abbrev Byte := BitVec 8

/-- The bytes of the driver's objects, by handle, and the caller's block of
`hostSize` bytes. -/
structure CopyMem where
  vram : Nat → Nat → Byte
  host : Nat → Byte
  hostSize : Nat

/-- The driver and the C library on the way to a mapping: what
`DRM_RADEON_GEM_MMAP` returns for a descriptor, a handle, an offset and a size,
and whether `mmap` of that size succeeds. -/
structure MmapEnv where
  gemMmap : Nat → Nat → Nat → Nat → Int
  mmap : Nat → Nat → Bool

/-- How a C call ends. -/
inductive Outcome
  | ret (r : Int)
  | abort (text : String)
  | fault (f : Fault)
  deriving DecidableEq, Repr

/-- A `memcpy` between a mapped fragment, from an offset on, and the caller's
block, from a position on. -/
abbrev Memcpy := GpuBuffer → Nat → Nat → Nat → CopyMem → Except Fault CopyMem

/-- `memcpy(ptr, src, size)`: no byte may lie outside the fragment or the block. A driver that
rounds its objects up to whole pages takes the bytes between the end of the fragment and that of
its last page, and the call goes on; here they are a fault like those behind the page. -/
def memcpyToGpu : Memcpy := fun b offset pos len m =>
  if len = 0 ∨ offset + len ≤ b.size ∧ pos + len ≤ m.hostSize then
    .ok { m with
      vram := Function.update m.vram b.handle
        ((Move.mk offset pos len).into (m.vram b.handle) m.host) }
  else .error .outOfBounds

/-- `memcpy(dst, ptr, size)`. -/
def memcpyFromGpu : Memcpy := fun b offset pos len m =>
  if len = 0 ∨ offset + len ≤ b.size ∧ pos + len ≤ m.hostSize then
    .ok { m with host := (Move.mk pos offset len).into m.host (m.vram b.handle) }
  else .error .outOfBounds

variable (memcpy : Memcpy) (env : MmapEnv) (h : Heap)

/-- The common body of `compute_copy_to_gpu_unfragmented` and
`compute_copy_from_gpu_unfragmented`. -/
def copyUnfragmented (bo : BufPtr) (gpuOffset pos size : Nat) (m : CopyMem) : Outcome × CopyMem :=
  match h.loadBuffer bo with
  | .error f => (.fault f, m)
  | .ok b =>
    -- the offset is added to the bound instead of taken off it
    if size > add64 b.size gpuOffset then (.ret (-1), m)
    else
      match h.contexts.load b.ctx with
      | .error f => (.fault f, m)
      | .ok c =>
        if env.gemMmap c.fd b.handle gpuOffset size ≠ 0 then (.ret (-2), m)
        else if env.mmap c.fd size = false then (.ret (-3), m)
        else
          match memcpy b gpuOffset pos size m with
          | .error f => (.fault f, m)
          | .ok m => (.ret 0, m)

def computeCopyToGpuUnfragmented := copyUnfragmented memcpyToGpu

def computeCopyFromGpuUnfragmented := copyUnfragmented memcpyFromGpu

/-- The end of both copy functions. The condition of the assertion assigns
`size`, so it fails only for size 0. -/
def copyDone (size : Nat) (m : CopyMem) : Outcome × CopyMem :=
  if size ≠ 0 then (.ret 0, m) else (.abort "start_gpu = size", m)

/-- The loop of both copy functions, from fragment `i` on with `count`
fragments to go. `size_left` is the whole size less the cursor, which started
at the offset. -/
def copyLoop (bo : BufPtr) (size : Nat) :
    Nat → Nat → Nat → Nat → CopyMem → Outcome × CopyMem
  | 0, _, _, _, m => copyDone size m
  | count + 1, i, startGpu, pos, m =>
      let sizeLeft := sub64 size startGpu
      let localSize := if sizeLeft < fragmentSize then sizeLeft else fragmentSize
      if localSize = 0 then copyDone size m
      else
        -- taken off also where less than a fragment is left
        let localOffset := startGpu % fragmentSize
        let localSize := sub64 localSize localOffset
        match copyUnfragmented memcpy env h (bo.add i) localOffset pos localSize m with
        | (.ret r, m) =>
            if r ≠ 0 then (.ret r, m)
            else copyLoop bo size count (i + 1) (add64 startGpu localSize) (pos + localSize) m
        | (ending, m) => (ending, m)

/-- The common body of the two copy functions. -/
def copyFragments (bo : BufPtr) (gpuOffset size : Nat) (m : CopyMem) : Outcome × CopyMem :=
  match h.loadBuffer bo with
  | .error f => (.fault f, m)
  | .ok b =>
    let startFragment := gpuOffset / fragmentSize
    if startFragment < b.fragmentNumber then
      copyLoop memcpy env h bo size (b.fragmentNumber - startFragment) startFragment gpuOffset 0 m
    else (.abort "start_fragment < bo->fragment_number", m)

def computeCopyToGpu := copyFragments memcpyToGpu

def computeCopyFromGpu := copyFragments memcpyFromGpu

end RadeonsiCompute
