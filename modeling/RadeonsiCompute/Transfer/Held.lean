import RadeonsiCompute.Buffer.Kernel
import RadeonsiCompute.Transfer.Exact

/-!
# Every held buffer can be transferred

The transfer theorems ask for a buffer that is split into fragments of distinct
objects. Every buffer a caller holds is one, in every state of every run, so
they hold of all of them.
-/

namespace RadeonsiCompute

open Lib

section

variable {h h' : Heap} {ctx : Addr} {bufs bufs' : Finset BufPtr} {rest rest' : List Addr}
  {total domain alignment : Nat} {b bo : BufPtr} {handles : List Nat}

/-- A buffer that is still live and was not written is split as before. -/
theorem Fragmented.frame (buffer : Fragmented h b total) (owned : PoolOwned h' ctx bufs' rest')
    (live : b ∈ bufs') (contexts : h'.contexts = h.contexts)
    (same : ∀ p : BufPtr, p.block = b.block → h'.buffer p = h.buffer p) :
    Fragmented h' b total := by
  have fragments : ∀ j, h'.buffer (b.add j) = h.buffer (b.add j) :=
    fun j => same _ (BufPtr.add_block b j)
  have number : (h'.buffer b).fragmentNumber = fragmentCount total := by
    rw [same b rfl, buffer.number]
  constructor
  · exact buffer.request
  · exact number
  · intro j hj
    exact owned.validBuffer live (by rw [number]; exact hj)
  · intro j hj
    rw [fragments, contexts]
    exact buffer.ctxLive j hj
  · intro j hj
    rw [fragments]
    exact buffer.size j hj
  · intro i hi j hj
    rw [fragments, fragments]
    exact buffer.handles i hi j hj

/-- A new buffer is split over the objects created for it. -/
theorem Allocated.fragmented
    (alloc : Allocated h h' ctx bufs rest total domain alignment bo handles rest')
    (ok : RequestOk total) (distinct : handles.Nodup) : Fragmented h' bo total := by
  have number := alloc.number ok
  have fragments : ∀ j (hj : j < fragmentCount total), h'.buffer (bo.add j) =
      { fragment ctx total domain alignment (handles.get ⟨j, by rw [alloc.count]; exact hj⟩) j with
        va := (h'.buffer (bo.add j)).va } :=
    fun j hj => alloc.fragments j (by rw [alloc.count]; exact hj)
  constructor
  · exact ok
  · exact number
  · intro j hj
    exact alloc.owned.validBuffer (Finset.mem_insert_self bo bufs) (by rw [number]; exact hj)
  · intro j hj
    rw [fragments j hj]
    exact alloc.owned.ctxLive
  · intro j hj
    rw [fragments j hj]
    simp only [fragment]
  · intro i hi j hj same
    rw [fragments i hi, fragments j hj] at same
    simp only [fragment] at same
    exact Fin.mk.inj (distinct.injective_get same)

end

namespace Client

variable (ctx : Addr) (fresh : Allocator)

/-- The pool is in order and every buffer held is split into fragments. -/
def HeldInv {κ : Type} (s : Client κ) : Prop :=
  ∃ rest, PoolInv s.world.heap ctx s.held rest ∧
    ∀ b ∈ s.held, ∃ total, Fragmented s.world.heap b total

theorem inductive_heldInv : (poolSystem (kernelDrm fresh) ctx).Inductive (HeldInv ctx) where
  init s start := by
    obtain ⟨rest, inv⟩ :=
      (inductive_inv (kernelDrm fresh) ctx fun _ _ _ => Option.some_ne_none _).init s start
    obtain ⟨-, held, -⟩ := start
    refine ⟨rest, inv, fun b hb => ?_⟩
    rw [held] at hb
    exact absurd hb (Finset.notMem_empty b)
  step s c s' inv hstep := by
    obtain ⟨rest, pool, split⟩ := inv
    obtain ⟨rest', pool'⟩ :=
      (inductive_inv (kernelDrm fresh) ctx fun _ _ _ => Option.some_ne_none _).step s c s'
        ⟨rest, pool⟩ hstep
    obtain ⟨⟨allowed, -⟩, run⟩ := hstep
    obtain ⟨owned, layout⟩ := id pool
    refine ⟨rest', pool', ?_⟩
    cases c with
    | free bo =>
        obtain ⟨h', rest'', free, released⟩ :=
          computeFreeGpuBuffer_spec (kernelDrm fresh) owned allowed (pool.va_ne_zero allowed)
        simp only [Client.call, free, ok_bind] at run
        obtain rfl := Except.ok.inj run
        intro b hb
        obtain ⟨total, buffer⟩ := split b (Finset.mem_of_mem_erase hb)
        exact ⟨total, buffer.frame released.owned hb released.contexts fun p _ => released.buffer p⟩
    | alloc libc size domain alignment =>
        obtain ⟨positive, small, foreign⟩ := allowed
        have ok := requestOk_of_le positive small
        obtain ⟨bo, handles, h', rest'', k₁, k₂, alloc, created, outcome⟩ :=
          @computeAllocGpuBuffer_spec Kernel (kernelDrm fresh) ctx s.held rest size domain libc
            s.world alignment owned ok foreign (kernelDrm_creates fresh)
        rcases outcome with ⟨run', -⟩ | ⟨h'', rest₂, run', -, abandoned⟩
        · simp only [Client.call, run', ok_bind] at run
          obtain rfl := Except.ok.inj run
          intro b hb
          rcases Finset.mem_insert.mp hb with rfl | old
          · exact ⟨size, alloc.fragmented ok created.opened.nodup⟩
          · obtain ⟨total, buffer⟩ := split b old
            exact ⟨total, buffer.frame alloc.owned hb alloc.contexts (alloc.others b old)⟩
        · simp only [Client.call, run', ok_bind] at run
          obtain rfl := Except.ok.inj run
          intro b hb
          obtain ⟨total, buffer⟩ := split b hb
          exact ⟨total, buffer.frame abandoned.owned hb abandoned.contexts (abandoned.others b hb)⟩

end Client

/-- The bytes of a buffer, over all its fragments. -/
def Heap.totalSize (h : Heap) (bo : BufPtr) : Nat :=
  ((List.range (h.buffer bo).fragmentNumber).map fun j => (h.buffer (bo.add j)).size).sum

theorem Fragmented.totalSize {h : Heap} {bo : BufPtr} {total : Nat}
    (buffer : Fragmented h bo total) : h.totalSize bo = total := by
  have sizes : (List.range (fragmentCount total)).map (fun j => (h.buffer (bo.add j)).size) =
      (List.range (fragmentCount total)).map (fragmentBytes total) :=
    List.map_congr_left fun j member => buffer.size j (List.mem_range.mp member)
  have finish := mt lt_fragmentCount.mpr (Nat.lt_irrefl (fragmentCount total))
  rw [Heap.totalSize, buffer.number, sizes, sum_fragmentBytes]
  exact Nat.min_eq_left (by omega)

/-- Whatever was allocated and freed before, a buffer that is held is split as
the copy functions expect, over distinct objects. -/
theorem poolSystem_fragmented (fresh : Allocator) (ctx : Addr) {s : Client Kernel}
    (reach : (poolSystem (kernelDrm fresh) ctx).Reachable s) {bo : BufPtr} (held : bo ∈ s.held) :
    Fragmented s.world.heap bo (s.world.heap.totalSize bo) := by
  obtain ⟨rest, -, split⟩ := (Client.inductive_heldInv ctx fresh).invariant reach
  obtain ⟨total, buffer⟩ := split bo held
  rw [buffer.totalSize]
  exact buffer

end RadeonsiCompute
