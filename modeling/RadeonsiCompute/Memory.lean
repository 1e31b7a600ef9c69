import RadeonsiCompute.Lib.Store
import RadeonsiCompute.Lib.Word64

/-!
# The library's heap

The C structures of `computesi.h` and the heap they live in: one store for the
`pool_node` blocks, one for the `gpu_buffer` arrays and one for the contexts.
A `gpu_buffer *` is a block and an element index, since a buffer is an array
of fragments and `bo + i` is ordinary pointer arithmetic in this code.
-/

namespace RadeonsiCompute

open Lib

/-- A `struct gpu_buffer *`: the `calloc` block and the element index. -/
structure BufPtr where
  block : Addr
  index : Nat
  deriving DecidableEq, Repr

/-- `bo + i`. -/
def BufPtr.add (p : BufPtr) (i : Nat) : BufPtr := { p with index := p.index + i }

@[simp] theorem BufPtr.add_block (p : BufPtr) (i : Nat) : (p.add i).block = p.block := rfl

@[simp] theorem BufPtr.add_index (p : BufPtr) (i : Nat) : (p.add i).index = p.index + i := rfl

@[simp] theorem BufPtr.add_zero (p : BufPtr) : p.add 0 = p := rfl

theorem BufPtr.add_inj {p : BufPtr} {i j : Nat} : p.add i = p.add j ↔ i = j := by
  simp [BufPtr.add]

/-- `struct gpu_buffer`, one fragment of an allocation. -/
structure GpuBuffer where
  ctx : Addr
  alignment : Nat
  handle : Nat
  domain : Nat
  flags : Nat
  size : Nat
  va : Nat
  vaSize : Nat
  fragmentNumber : Nat
  deriving DecidableEq, Repr

/-- What `calloc` leaves in an element. -/
def GpuBuffer.zero : GpuBuffer := ⟨0, 0, 0, 0, 0, 0, 0, 0, 0⟩

/-- The fields of `struct pool_node` that describe a VA range. -/
structure PoolEntry where
  va : Nat
  size : Nat
  parentBo : BufPtr
  bo : BufPtr
  deriving DecidableEq, Repr

/-- `struct pool_node`: a VA range and its links, a null link being `none`. -/
structure PoolNode extends PoolEntry where
  prev : Option Addr
  next : Option Addr
  deriving DecidableEq, Repr

/-- `struct compute_context`, without the X11 and memory-size fields. -/
structure ComputeContext where
  fd : Nat
  vmPool : Addr
  deriving DecidableEq, Repr

/-- A `calloc`ed array of `gpu_buffer`. -/
structure BufferBlock where
  count : Nat
  elem : Nat → GpuBuffer

structure Heap where
  nodes : Store PoolNode
  buffers : Store BufferBlock
  contexts : Store ComputeContext

/-- Where `malloc` puts the next pool node and `calloc` the next buffer array. -/
structure Libc where
  node : Allocator
  buffer : Allocator

namespace Heap

/-- The contents of a `gpu_buffer`, allocated or not. -/
def buffer (h : Heap) (p : BufPtr) : GpuBuffer := (h.buffers.cell p.block).elem p.index

/-- The pointer names an element of an allocated array. -/
def ValidBuffer (h : Heap) (p : BufPtr) : Prop :=
  p.block ∈ h.buffers.live ∧ p.index < (h.buffers.cell p.block).count

def loadBuffer (h : Heap) (p : BufPtr) : Except Fault GpuBuffer := do
  let block ← h.buffers.load p.block
  if p.index < block.count then .ok (block.elem p.index) else .error .outOfBounds

def modifyBuffer (h : Heap) (p : BufPtr) (f : GpuBuffer → GpuBuffer) :
    Except Fault Heap := do
  let block ← h.buffers.load p.block
  if p.index < block.count then
    let buffers ← h.buffers.modify p.block fun b =>
      { b with elem := Function.update b.elem p.index (f (b.elem p.index)) }
    .ok { h with buffers }
  else .error .outOfBounds

/-- `calloc(count, sizeof(struct gpu_buffer))`. -/
def callocBuffers (h : Heap) (libc : Libc) (count : Nat) : Except Fault (BufPtr × Heap) := do
  let (a, buffers) := h.buffers.malloc libc.buffer
  let buffers ← buffers.modify a fun _ => { count, elem := fun _ => .zero }
  .ok (⟨a, 0⟩, { h with buffers })

/-- `free(bo)`, defined only for the pointer `calloc` returned. -/
def freeBuffer (h : Heap) (p : BufPtr) : Except Fault Heap :=
  if p.index = 0 then do
    let buffers ← h.buffers.free p.block
    .ok { h with buffers }
  else .error .invalidFree

theorem loadBuffer_eq {h : Heap} {p : BufPtr} (valid : h.ValidBuffer p) :
    h.loadBuffer p = .ok (h.buffer p) := by
  simp [loadBuffer, Store.load_eq valid.1, valid.2, buffer]

theorem loadBuffer_ok {h : Heap} {p : BufPtr} {b : GpuBuffer} (loaded : h.loadBuffer p = .ok b) :
    h.buffer p = b := by
  obtain ⟨block, found, loaded⟩ := bind_eq_ok.mp loaded
  split at loaded
  · rw [← Except.ok.inj loaded, buffer]
    unfold Store.load at found
    split at found
    · rw [Except.ok.inj found]
    · exact nomatch found
  · exact nomatch loaded

/-- The heap after a zeroed array is put at `a`. -/
def withArray (h : Heap) (a : Addr) (count : Nat) : Heap :=
  { h with buffers := {
      cell := Function.update h.buffers.cell a { count, elem := fun _ => .zero }
      live := insert a h.buffers.live } }

theorem callocBuffers_eq (h : Heap) (libc : Libc) (count : Nat) :
    h.callocBuffers libc count = .ok (⟨libc.buffer.choose h.buffers.live, 0⟩,
      h.withArray (libc.buffer.choose h.buffers.live) count) := by
  unfold callocBuffers Store.malloc
  dsimp only
  rw [Store.modify_eq (Finset.mem_insert_self _ _), ok_bind]
  rfl

theorem withArray_cell (h : Heap) (a : Addr) (count : Nat) (b : Addr) :
    (h.withArray a count).buffers.cell b =
      if b = a then { count, elem := fun _ => .zero } else h.buffers.cell b := by
  by_cases same : b = a <;> simp [withArray, same]

/-- The heap after one buffer is overwritten. -/
def setBuffer (h : Heap) (p : BufPtr) (b : GpuBuffer) : Heap :=
  { h with buffers := { h.buffers with
      cell := Function.update h.buffers.cell p.block
        { h.buffers.cell p.block with
          elem := Function.update (h.buffers.cell p.block).elem p.index b } } }

theorem modifyBuffer_eq {h : Heap} {p : BufPtr} (valid : h.ValidBuffer p)
    (f : GpuBuffer → GpuBuffer) :
    h.modifyBuffer p f = .ok (h.setBuffer p (f (h.buffer p))) := by
  simp [modifyBuffer, Store.load_eq valid.1, valid.2, Store.modify_eq valid.1, setBuffer, buffer]

/-- Writing a buffer leaves the nodes alone. -/
theorem modifyBuffer_nodes {h h' : Heap} {p : BufPtr} {f : GpuBuffer → GpuBuffer}
    (written : h.modifyBuffer p f = .ok h') : h'.nodes = h.nodes := by
  obtain ⟨block, -, rest⟩ := bind_eq_ok.mp written
  split at rest
  · obtain ⟨buffers, -, final⟩ := bind_eq_ok.mp rest
    rw [← Except.ok.inj final]
  · exact nomatch rest

@[simp] theorem setBuffer_nodes (h : Heap) (p : BufPtr) (b : GpuBuffer) :
    (h.setBuffer p b).nodes = h.nodes := rfl

@[simp] theorem setBuffer_contexts (h : Heap) (p : BufPtr) (b : GpuBuffer) :
    (h.setBuffer p b).contexts = h.contexts := rfl

@[simp] theorem setBuffer_live (h : Heap) (p : BufPtr) (b : GpuBuffer) :
    (h.setBuffer p b).buffers.live = h.buffers.live := rfl

@[simp] theorem setBuffer_count (h : Heap) (p : BufPtr) (b : GpuBuffer) (a : Addr) :
    ((h.setBuffer p b).buffers.cell a).count = (h.buffers.cell a).count := by
  by_cases same : a = p.block
  · subst same; simp [setBuffer]
  · simp [setBuffer, same]

theorem buffer_setBuffer (h : Heap) (p q : BufPtr) (b : GpuBuffer) :
    (h.setBuffer p b).buffer q = if q = p then b else h.buffer q := by
  obtain ⟨pb, pi⟩ := p
  obtain ⟨qb, qi⟩ := q
  by_cases sameBlock : qb = pb
  · subst sameBlock
    by_cases sameIndex : qi = pi
    · subst sameIndex; simp [setBuffer, buffer]
    · simp [setBuffer, buffer, sameIndex]
  · simp [setBuffer, buffer, sameBlock]

@[simp] theorem validBuffer_setBuffer {h : Heap} {p q : BufPtr} {b : GpuBuffer} :
    (h.setBuffer p b).ValidBuffer q ↔ h.ValidBuffer q := by
  simp [ValidBuffer]

end Heap

end RadeonsiCompute
