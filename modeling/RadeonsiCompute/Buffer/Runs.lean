import RadeonsiCompute.Buffer.Alloc
import RadeonsiCompute.Lib.TSys

/-!
# Every run of allocations and releases

A caller that creates a context and then allocates and frees buffers in any
order. The pool is coherent in every state it reaches: in address order,
without overlap, well linked, and in one-to-one correspondence with the
fragments of the buffers the caller holds. No call of such a caller faults.
-/

namespace RadeonsiCompute

open Lib

/-- A caller of the library and the buffers it holds. -/
structure Client (κ : Type) where
  world : World κ
  held : Finset BufPtr

inductive Call
  | alloc (libc : Libc) (size domain : Nat) (alignment : Int)
  | free (bo : BufPtr)

namespace Client

variable {κ : Type} (drm : Drm κ) (ctx : Addr)

/-- What a call does. A buffer that could not be mapped is not held. -/
def call (s : Client κ) : Call → Except Fault (Client κ)
  | .alloc libc size domain alignment => do
      let (result, world) ← computeAllocGpuBuffer drm libc s.world ctx size domain alignment
      match result with
      | none => .ok { s with world }
      | some bo => .ok { world, held := insert bo s.held }
  | .free bo => do
      let world ← computeFreeGpuBuffer drm s.world bo
      .ok { world, held := s.held.erase bo }

/-- The calls a caller may make: requests of 1 byte to 2^40 and releases of
buffers it holds. The reserved node's `parent_bo` is never written, so `calloc`
must not return the pointer it happens to hold. -/
def Allowed (s : Client κ) : Call → Prop
  | .alloc libc size _ _ => 0 < size ∧ size ≤ 2 ^ 40 ∧
      (s.world.heap.sentinel ctx).parentBo ≠ ⟨libc.buffer.choose s.world.heap.buffers.live, 0⟩
  | .free bo => bo ∈ s.held

instance (s : Client κ) : (c : Call) → Decidable (s.Allowed ctx c)
  | .alloc libc size _ _ => inferInstanceAs (Decidable (0 < size ∧ size ≤ 2 ^ 40 ∧
      (s.world.heap.sentinel ctx).parentBo ≠ ⟨libc.buffer.choose s.world.heap.buffers.live, 0⟩))
  | .free bo => inferInstanceAs (Decidable (bo ∈ s.held))

/-- The ranges of the pool, the reserved one included. -/
def ranges (s : Client κ) : List PoolEntry :=
  s.world.heap.entries (s.world.heap.poolNodes ctx)

end Client

/-- The runs of a caller, from the pool of a new context and a driver in one of
the states `start`, whose steps all meet `guard`. -/
def callerSystem {κ : Type} (drm : Drm κ) (ctx : Addr) (start : κ → Prop)
    (guard : Client κ → Call → Client κ → Prop) : TSys (Client κ) Call where
  init s := start s.world.kernel ∧ s.held = ∅ ∧ ∃ libc h reservedMem, ctx ∈ h.contexts.live ∧
    reservedMem + 4096 < 2 ^ 64 ∧ createVmPool libc h ctx reservedMem = .ok s.world.heap
  step s c s' := guard s c s' ∧ s.call drm ctx c = .ok s'

/-- Any run of allowed calls in which no range reaches 2^64. -/
abbrev poolSystem {κ : Type} (drm : Drm κ) (ctx : Addr) : TSys (Client κ) Call :=
  callerSystem drm ctx (fun _ => True) fun s c s' => s.Allowed ctx c ∧ Below (s'.ranges ctx)

/-- The fragments of the given buffers. -/
def Heap.fragmentsOf (h : Heap) (held : Finset BufPtr) : Set BufPtr :=
  {p | ∃ b ∈ held, ∃ i < (h.buffer b).fragmentNumber, p = b.add i}

/-- The addresses of a node's range. -/
def Heap.range (h : Heap) (a : Addr) : Set Nat :=
  Set.Ico (h.nodes.cell a).va ((h.nodes.cell a).va + (h.nodes.cell a).size)

/-- The pool list is in order and describes exactly the fragments of the
buffers held. Its first node is the reserved range. -/
structure PoolCoherent (h : Heap) (ctx : Addr) (held : Finset BufPtr) : Prop where
  linked : IsPool h (h.vmPool ctx) (h.poolNodes ctx)
  increasing : (h.poolNodes ctx).Pairwise fun a b => (h.nodes.cell a).va < (h.nodes.cell b).va
  disjoint : (h.poolNodes ctx).Pairwise fun a b => Disjoint (h.range a) (h.range b)
  pages : 4096 ∣ (h.sentinel ctx).size → ∀ a ∈ h.poolNodes ctx,
    4096 ∣ (h.nodes.cell a).va ∧ 4096 ∣ (h.nodes.cell a).size
  fragments : Set.BijOn (fun a => (h.nodes.cell a).bo) {a | a ∈ (h.poolNodes ctx).tail}
    (h.fragmentsOf held)
  owner : ∀ a ∈ (h.poolNodes ctx).tail, (h.nodes.cell a).parentBo ∈ held ∧
    ∃ i < (h.buffer (h.nodes.cell a).parentBo).fragmentNumber,
      (h.nodes.cell a).bo = (h.nodes.cell a).parentBo.add i
  agree : ∀ a ∈ (h.poolNodes ctx).tail,
    (h.nodes.cell a).va = (h.buffer (h.nodes.cell a).bo).va ∧
      (h.nodes.cell a).size = (h.buffer (h.nodes.cell a).bo).vaSize

/-! ## The invariant -/

/-- The pool of a caller: owned by the buffers it holds, and laid out in order. -/
def PoolInv (h : Heap) (ctx : Addr) (held : Finset BufPtr) (rest : List Addr) : Prop :=
  PoolOwned h ctx held rest ∧ PoolLayout (h.sentinel ctx) (h.entries rest)

theorem PoolOwned.ranges_eq {h : Heap} {ctx : Addr} {held : Finset BufPtr} {rest : List Addr}
    (owned : PoolOwned h ctx held rest) :
    h.entries (h.poolNodes ctx) = h.sentinel ctx :: h.entries rest := by
  rw [owned.pool.poolNodes_eq]
  rfl

/-- The invariant says what a coherent pool is. -/
theorem PoolInv.coherent {h : Heap} {ctx : Addr} {held : Finset BufPtr} {rest : List Addr}
    (inv : PoolInv h ctx held rest) : PoolCoherent h ctx held := by
  obtain ⟨owned, layout⟩ := inv
  have nodes : h.poolNodes ctx = h.vmPool ctx :: rest := owned.pool.poolNodes_eq
  have entries : h.sentinel ctx :: h.entries rest = h.entries (h.vmPool ctx :: rest) := rfl
  have ordered := layout.ordered
  have increasing := ordered.start_lt layout.positive
  have disjoint := ordered.disjoint
  have pages := layout.pages
  rw [entries] at increasing disjoint pages
  rw [Heap.entries, List.pairwise_map] at increasing disjoint
  refine ⟨?_, ?_, ?_, ?_, ?_, ?_, ?_⟩
  · rw [nodes]; exact owned.pool
  · rw [nodes]; exact increasing
  · rw [nodes]; exact disjoint
  · rw [nodes]
    intro page a member
    exact pages page _ (h.entry_mem member)
  · rw [nodes]
    refine ⟨?_, ?_, ?_⟩
    · intro a member
      obtain ⟨parentIn, i, hi, same⟩ := owned.owned _ (h.entry_mem member)
      exact ⟨_, parentIn, i, hi, same⟩
    · intro a ha a' ha' same
      have distinct := owned.distinct
      rw [Heap.entries, List.map_map] at distinct
      exact List.inj_on_of_nodup_map distinct ha ha' same
    · rintro p ⟨b, hb, i, hi, rfl⟩
      obtain ⟨e, member, same⟩ := owned.listed b hb i hi
      obtain ⟨a, inRest, rfl⟩ := Heap.mem_entries.mp member
      exact ⟨a, inRest, same⟩
  · rw [nodes]
    intro a member
    exact owned.owned _ (h.entry_mem (show a ∈ rest from member))
  · rw [nodes]
    intro a member
    exact owned.agree _ (h.entry_mem (show a ∈ rest from member))

/-- A live buffer has a nonzero address, so freeing it reaches the pool. -/
theorem PoolInv.va_ne_zero {h : Heap} {ctx : Addr} {held : Finset BufPtr} {rest : List Addr}
    (inv : PoolInv h ctx held rest) {bo : BufPtr} (hbo : bo ∈ held) : (h.buffer bo).va ≠ 0 := by
  obtain ⟨owned, layout⟩ := inv
  obtain ⟨e, member, same⟩ := owned.listed bo hbo 0 (owned.buffers bo hbo).positive
  have agree := (owned.agree e member).1
  rw [same, BufPtr.add_zero] at agree
  have positive := layout.va_pos member
  omega

/-- `compute_create_context` leaves a pool with only the reserved range. -/
theorem createVmPool_spec (libc : Libc) {h : Heap} {ctx : Addr} {reservedMem : Nat}
    (ctxLive : ctx ∈ h.contexts.live) (small : reservedMem + 4096 < 2 ^ 64) :
    ∃ h', createVmPool libc h ctx reservedMem = .ok h' ∧ PoolInv h' ctx ∅ [] ∧
      (h'.sentinel ctx).size = reservedMem + 4096 ∧ h'.buffers = h.buffers := by
  have size : add64 reservedMem 4096 = reservedMem + 4096 := add64_of_lt small
  rw [createVmPool_eq libc reservedMem ctxLive, Heap.withPool, size]
  generalize libc.node.choose h.nodes.live = a
  refine ⟨_, rfl, ⟨⟨ctxLive, ⟨?_, ?_, ?_, ?_⟩, ?_, ?_, ?_, ?_, ?_, ?_⟩, ⟨?_, ?_, ?_, ?_, ?_⟩⟩, ?_, rfl⟩
  · simp [Heap.vmPool]
  · simp [Heap.vmPool, Linked]
  · simp [Heap.vmPool]
  · simp
  · simp
  · simp
  · simp
  · simp
  · simp
  · simp
  · simp [Heap.sentinel, Heap.vmPool]
  · exact List.pairwise_singleton _ _
  · simp [Heap.sentinel, Heap.vmPool]
  · intro e member
    rw [List.mem_singleton.mp member]
    simpa [Heap.sentinel, Heap.vmPool] using small
  · simp [Heap.sentinel, Heap.vmPool]
  · simp [Heap.sentinel, Heap.vmPool]

namespace Client

variable {κ : Type} (drm : Drm κ) (ctx : Addr)

/-- The state invariant. -/
def Inv (s : Client κ) : Prop := ∃ rest, PoolInv s.world.heap ctx s.held rest

/-- An allowed call returns, and keeps the invariant unless a range reaches 2^64. -/
theorem Inv.call {s : Client κ} (inv : s.Inv ctx)
    (creates : ∀ fd args k, (drm.gemCreate fd args k).1 ≠ none) {c : Call}
    (allowed : s.Allowed ctx c) :
    ∃ s', s.call drm ctx c = .ok s' ∧ (Below (s'.ranges ctx) → s'.Inv ctx) := by
  obtain ⟨rest, inv⟩ := inv
  obtain ⟨owned, layout⟩ := id inv
  cases c with
  | free bo =>
      obtain ⟨h', rest', run, released⟩ :=
        computeFreeGpuBuffer_spec drm owned allowed (inv.va_ne_zero allowed)
      generalize drm.gemClose _ _ _ = k at run
      refine ⟨⟨⟨h', k⟩, s.held.erase bo⟩, ?_, fun _ => ⟨rest', released.owned, ?_⟩⟩
      · simp only [Client.call, run, ok_bind]
      · show PoolLayout (h'.sentinel ctx) (h'.entries rest')
        rw [released.sentinel, released.entries]
        exact layout.sublist List.filter_sublist
  | alloc libc size domain alignment =>
      obtain ⟨positive, small, foreign⟩ := allowed
      obtain ⟨bo, handles, h', rest', k₁, k₂, alloc, -, outcome⟩ :=
        @computeAllocGpuBuffer_spec κ drm ctx s.held rest size domain libc s.world alignment owned
          (requestOk_of_le positive small) foreign creates
      rcases outcome with ⟨run, -⟩ | ⟨h'', rest'', run, -, abandoned⟩
      · refine ⟨⟨⟨h', k₂⟩, insert bo s.held⟩, ?_, fun below => ⟨rest', alloc.owned, ?_⟩⟩
        · simp only [Client.call, run, ok_bind]
        · refine alloc.layout layout ?_
          rw [← alloc.owned.ranges_eq]
          exact below
      · generalize drm.gemClose _ _ _ = k at run
        refine ⟨⟨⟨h'', k⟩, s.held⟩, ?_, fun _ => ⟨rest'', abandoned.owned, ?_⟩⟩
        · simp only [Client.call, run, ok_bind]
        · show PoolLayout (h''.sentinel ctx) (h''.entries rest'')
          rw [abandoned.sentinel, abandoned.entries]
          exact layout

/-- The invariant is inductive. -/
theorem inductive_inv (creates : ∀ fd args k, (drm.gemCreate fd args k).1 ≠ none) :
    (poolSystem drm ctx).Inductive (Inv ctx) where
  init s start := by
    obtain ⟨-, held, libc, h, reservedMem, ctxLive, small, run⟩ := start
    obtain ⟨h', run', inv, -⟩ := createVmPool_spec libc ctxLive small
    obtain rfl : h' = s.world.heap := by simpa [run] using run'.symm
    refine ⟨[], ?_⟩
    rw [held]
    exact inv
  step s c s' inv hstep := by
    obtain ⟨⟨allowed, below⟩, run⟩ := hstep
    obtain ⟨s'', run', keeps⟩ := inv.call drm ctx creates allowed
    obtain rfl : s'' = s' := by simpa [run] using run'.symm
    exact keeps below

end Client

/-- **The pool over whole runs.** Whatever is allocated and freed, in whatever
order, the pool is coherent in every state reached, and the next call returns. -/
theorem poolSystem_coherent {κ : Type} (drm : Drm κ) (ctx : Addr)
    (creates : ∀ fd args k, (drm.gemCreate fd args k).1 ≠ none) {s : Client κ}
    (reach : (poolSystem drm ctx).Reachable s) :
    PoolCoherent s.world.heap ctx s.held ∧
      ∀ c, s.Allowed ctx c → ∃ s', s.call drm ctx c = .ok s' := by
  have inv := (Client.inductive_inv drm ctx creates).invariant reach
  refine ⟨?_, fun c allowed => ?_⟩
  · obtain ⟨rest, inv⟩ := inv
    exact inv.coherent
  · obtain ⟨s', run, -⟩ := inv.call drm ctx creates allowed
    exact ⟨s', run⟩

/-! ## Runs on concrete inputs -/

/-- A C library that hands out increasing addresses. -/
def Libc.above : Libc := ⟨.above, .above⟩

/-- A heap with one context that has no pool yet. -/
def Heap.oneContext : Heap where
  nodes := { cell := fun _ => ⟨⟨0, 0, ⟨0, 0⟩, ⟨0, 0⟩⟩, none, none⟩, live := ∅ }
  buffers := { cell := fun _ => ⟨0, fun _ => .zero⟩, live := ∅ }
  contexts := { cell := fun _ => ⟨3, 0⟩, live := {0} }

namespace Client

variable {κ : Type} (drm : Drm κ) (guard : Client κ → Call → Client κ → Prop)
  [∀ s c s', Decidable (guard s c s')]

/-- A call that stops the run when it faults or does not meet `guard`. -/
def checked (s : Client κ) (c : Call) : Option (Client κ) :=
  match s.call drm 0 c with
  | .error _ => none
  | .ok s' => if guard s c s' then some s' else none

/-- A run of checked calls in a new context. -/
def run (k : κ) (calls : List Call) : Option (Client κ) :=
  match createVmPool .above .oneContext 0 0 with
  | .error _ => none
  | .ok heap => calls.foldlM (checked drm guard) { world := { heap, kernel := k }, held := ∅ }

/-- What a checked run reaches is reachable. -/
theorem reachable_of_run (start : κ → Prop) {k : κ} (started : start k) {calls : List Call}
    {s : Client κ} (run : Client.run drm guard k calls = some s) :
    (callerSystem drm 0 start guard).Reachable s := by
  have steps : ∀ s c s', checked drm guard s c = some s' →
      (callerSystem drm 0 start guard).step s c s' := by
    intro s c s' one
    unfold checked at one
    cases result : s.call drm 0 c with
    | error e => simp [result] at one
    | ok s₁ =>
        rw [result] at one
        by_cases met : guard s c s₁
        · obtain rfl : s₁ = s' := by simpa [met] using one
          exact ⟨met, result⟩
        · simp [met] at one
  unfold Client.run at run
  obtain ⟨h, create, -⟩ := @createVmPool_spec .above .oneContext 0 0 (by decide) (by decide)
  rw [create] at run
  refine TSys.Reachable.foldlM steps calls (.init ⟨started, rfl, .above, .oneContext, 0, ?_, ?_,
    create⟩) run
  · decide
  · decide

end Client

/-- A driver that grants every request, numbering the handles. -/
def grantingDrm : Drm Nat where
  gemCreate _ _ k := (some (k + 1), k + 1)
  gemVa _ _ k := ((0, radeonVaResultOk), k)
  gemClose _ _ k := k

/-- Two allocations and a release, the first allocation of two fragments. -/
def someCalls : List Call :=
  [.alloc .above 104857600 2 4096, .alloc .above 5000 2 4096, .free ⟨1, 0⟩]

/-- They lead to a coherent pool. -/
theorem poolSystem_coherent_someCalls :
    ∃ s, (Client.run grantingDrm (fun s c s' => s.Allowed 0 c ∧ Below (s'.ranges 0)) 0
        someCalls = some s ∧ s.held.card = 1) ∧
      PoolCoherent s.world.heap 0 s.held ∧
        ∀ c, s.Allowed 0 c → ∃ s', s.call grantingDrm 0 c = .ok s' := by
  obtain ⟨s, run, held⟩ := Option.map_eq_some_iff.mp (show
    (Client.run grantingDrm (fun s c s' => s.Allowed 0 c ∧ Below (s'.ranges 0)) 0
      someCalls).map (fun s => s.held.card) = some 1 by decide +kernel)
  refine ⟨s, ⟨run, held⟩, poolSystem_coherent grantingDrm 0 ?_ ?_⟩
  · intro fd args k
    exact Option.some_ne_none _
  · exact Client.reachable_of_run grantingDrm _ _ trivial run

end RadeonsiCompute
