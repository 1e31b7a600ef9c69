import RadeonsiCompute.Memory

/-!
# The VA pool, as the code computes it

`compute_pool_alloc` and `compute_pool_free` of `computesi.c`, and the lines of
`compute_create_context` that build the one-node pool. The pool is a doubly
linked list of `pool_node` blocks starting at `ctx->vm_pool`. Walks carry a
fuel of one step for each allocated node: a walk that outlives it has come back
to a node it already visited and never ends.
-/

namespace RadeonsiCompute

open Lib

/-- The end of `compute_create_context`: `vm_pool` becomes a single node over
the range the driver reserves. `parent_bo` and `bo` keep what the block held. -/
def createVmPool (libc : Libc) (h : Heap) (ctx : Addr) (reservedMem : Nat) :
    Except Fault Heap := do
  let (a, nodes) := h.nodes.malloc libc.node
  let nodes ← nodes.modify a fun n =>
    { n with va := 0, size := add64 reservedMem 4096, prev := none, next := none }
  let contexts ← h.contexts.modify ctx fun c => { c with vmPool := a }
  .ok { h with nodes, contexts }

/-- The heap after the node at `a` became the pool of a context. -/
def Heap.withPool (h : Heap) (ctx a : Addr) (reservedMem : Nat) : Heap :=
  { h with
    nodes := {
      cell := Function.update h.nodes.cell a { h.nodes.cell a with
        va := 0, size := add64 reservedMem 4096, prev := none, next := none }
      live := insert a h.nodes.live }
    contexts := { h.contexts with
      cell := Function.update h.contexts.cell ctx { h.contexts.cell ctx with vmPool := a } } }

theorem createVmPool_eq (libc : Libc) {h : Heap} {ctx : Addr} (reservedMem : Nat)
    (ctxLive : ctx ∈ h.contexts.live) : createVmPool libc h ctx reservedMem =
      .ok (h.withPool ctx (libc.node.choose h.nodes.live) reservedMem) := by
  unfold createVmPool Store.malloc
  dsimp only
  rw [Store.modify_eq (Finset.mem_insert_self _ _), ok_bind, Store.modify_eq ctxLive, ok_bind]
  rfl

/-- The gap test of `compute_pool_alloc`. The cast to `int64_t` is undone by
the subtractions that follow it, which are unsigned. -/
def gapFits (b : GpuBuffer) (n next : PoolEntry) : Bool :=
  decide (b.vaSize < sub64 (sub64 next.va n.va) n.size) && decide (b.alignment ≤ 4096)

/-- Insert a node for `bo` between `n` and the node `nx` that follows it. -/
def insertNode (libc : Libc) (h : Heap) (bo : BufPtr) (b : GpuBuffer) (n nx : Addr)
    (node : PoolNode) : Except Fault Heap := do
  let (n2, nodes) := h.nodes.malloc libc.node
  let va := add64 node.va node.size
  let nodes ← nodes.modify n2 fun _ =>
    { parentBo := bo, bo, va, size := b.vaSize, prev := some n, next := node.next }
  let nodes ← nodes.modify nx fun x => { x with prev := some n2 }
  let nodes ← nodes.modify n fun x => { x with next := some n2 }
  { h with nodes }.modifyBuffer bo fun x => { x with va }

/-- The append loop over the fragments from index `i`; `n` is the last node. -/
def appendNodes (libc : Libc) (bo : BufPtr) : Nat → Nat → Heap → Addr → Except Fault Heap
  | 0, _, h, _ => .ok h
  | count + 1, i, h, n => do
      let buf := bo.add i
      let (n2, nodes) := h.nodes.malloc libc.node
      let b ← h.loadBuffer buf
      let node ← nodes.load n
      let va := add64 node.va node.size
      let nodes ← nodes.modify n2 fun _ =>
        { parentBo := bo, bo := buf, va, size := b.vaSize, prev := some n, next := none }
      let nodes ← nodes.modify n fun x => { x with next := some n2 }
      let h ← { h with nodes }.modifyBuffer buf fun x => { x with va }
      appendNodes libc bo count (i + 1) h n2

/-- The walk of `compute_pool_alloc` from node `n`. -/
def poolScan (libc : Libc) (bo : BufPtr) : Nat → Heap → Option Addr → Except Fault Heap
  | _, _, none => .error (.assertion "0 && unreachable")
  | 0, _, some _ => .error .diverges
  | fuel + 1, h, some n => do
      let node ← h.nodes.load n
      let b ← h.loadBuffer bo
      match node.next with
      | some nx =>
          -- only a buffer of one fragment goes into a gap
          if b.fragmentNumber = 1 then do
            let nextNode ← h.nodes.load nx
            if gapFits b node.toPoolEntry nextNode.toPoolEntry then
              insertNode libc h bo b n nx node
            else poolScan libc bo fuel h node.next
          else poolScan libc bo fuel h node.next
      | none => appendNodes libc bo b.fragmentNumber 0 h n

def computePoolAlloc (libc : Libc) (h : Heap) (ctx : Addr) (bo : BufPtr) :
    Except Fault Heap := do
  let b ← h.loadBuffer bo
  if b.vaSize % 4096 ≠ 0 then .error (.assertion "(bo->va_size & 4095) == 0")
  else if b.fragmentNumber = 0 then .error (.assertion "bo->fragment_number > 0")
  else do
    let c ← h.contexts.load ctx
    poolScan libc bo h.nodes.live.card h (some c.vmPool)

/-- Unlink and free node `n`, whose contents are `node`. -/
def unlinkNode (h : Heap) (n : Addr) (node : PoolNode) : Except Fault Heap := do
  match node.prev with
  -- `n->prev->next` is written without a test, `n->next->prev` with one
  | none => .error .nullDeref
  | some p => do
      let nodes ← h.nodes.modify p fun x => { x with next := node.next }
      let nodes ← match node.next with
        | none => .ok nodes
        | some q => nodes.modify q fun x => { x with prev := node.prev }
      let nodes ← nodes.free n
      .ok { h with nodes }

/-- The walk of `compute_pool_free` from node `n`; the count is `found_bo_num`. -/
def poolFreeLoop (bo : BufPtr) : Nat → Heap → Option Addr → Nat → Except Fault (Nat × Heap)
  | _, h, none, found => .ok (found, h)
  | 0, _, some _, _ => .error .diverges
  | fuel + 1, h, some n, found => do
      let node ← h.nodes.load n
      if node.parentBo = bo then do
        -- the successor was read before the node was freed
        let h ← unlinkNode h n node
        poolFreeLoop bo fuel h node.next (found + 1)
      else poolFreeLoop bo fuel h node.next found

def computePoolFree (h : Heap) (ctx : Addr) (bo : BufPtr) : Except Fault Heap := do
  let c ← h.contexts.load ctx
  let (found, h) ← poolFreeLoop bo h.nodes.live.card h (some c.vmPool) 0
  if found = 0 then
    .error (.assertion
      "found_bo_num != 0 && internal error attempted to free a non allocated vm block")
  else .ok h

end RadeonsiCompute
