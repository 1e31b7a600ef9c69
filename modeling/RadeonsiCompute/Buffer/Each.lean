import RadeonsiCompute.Buffer.Legal

/-!
# What each buffer of a caller is

`Client.Changed` says once what a call that returned did to the heap: a buffer
was released, a new one was added, or all was put back. `Changed.each` is the
rule that comes with it: what an allocation makes true of its buffer, and what
depends on nothing but the array of the buffer, is true of every buffer held.
-/

namespace RadeonsiCompute

open Lib

variable {κ : Type}

namespace Client

/-- What an allocation that returned did: a buffer was added and mapped, or a
fragment could not be mapped and all was put back but the other handles. -/
inductive Answer (drm : Drm κ) (ctx : Addr) (rest : List Addr) (s : Client κ)
    (wholeSize domain alignment : Nat) : Option BufPtr → World κ → Prop
  | buffer {bo handles rest' k w'} :
      Allocated s.world.heap w'.heap ctx s.held rest wholeSize domain alignment bo handles rest' →
      Creates drm (s.world.heap.contexts.cell ctx).fd s.world.kernel
        (createRequests wholeSize domain alignment) handles k →
      Maps drm (s.world.heap.contexts.cell ctx).fd k
        (w'.heap.mapRequests bo 0 radeonVmPageSnooped 0 (fragmentCount wholeSize)) w'.kernel →
      Answer drm ctx rest s wholeSize domain alignment (some bo) w'
  | nothing {bo handles h' rest' k k' w'} :
      Abandoned s.world.heap w'.heap ctx s.held rest rest' →
      handles.length = fragmentCount wholeSize →
      Creates drm (s.world.heap.contexts.cell ctx).fd s.world.kernel
        (createRequests wholeSize domain alignment) handles k →
      MapStops drm (s.world.heap.contexts.cell ctx).fd k
        (Heap.mapRequests h' bo 0 radeonVmPageSnooped 0 (fragmentCount wholeSize)) k' →
      w'.kernel = drm.gemClose (s.world.heap.contexts.cell ctx).fd (handles.headD 0) k' →
      Answer drm ctx rest s wholeSize domain alignment none w'

/-- What a call did to a caller whose pool has the nodes `rest` behind the
reserved one. -/
inductive Changed (drm : Drm κ) (ctx : Addr) (rest : List Addr) (s s' : Client κ) : Prop
  | freed {bo rest'} : bo ∈ s.held → s'.held = s.held.erase bo →
      Released s.world.heap s'.world.heap ctx s.held rest bo rest' →
      s'.world.kernel = drm.gemClose (s.world.heap.contexts.cell ctx).fd
        (s.world.heap.buffer bo).handle s.world.kernel → Changed drm ctx rest s s'
  | allocated {bo wholeSize domain alignment} : RequestOk wholeSize →
      s'.held = insert bo s.held →
      s.Answer drm ctx rest wholeSize domain alignment (some bo) s'.world →
      Changed drm ctx rest s s'
  | abandoned {wholeSize domain alignment} : RequestOk wholeSize → s'.held = s.held →
      s.Answer drm ctx rest wholeSize domain alignment none s'.world → Changed drm ctx rest s s'

variable {drm : Drm κ} {ctx : Addr} {s s' : Client κ} {rest : List Addr}

theorem answer (inv : PoolInv s.world.heap ctx s.held rest) {libc : Libc} {size domain : Nat}
    {alignment : Int} (legal : s.Legal ctx (.alloc libc size domain alignment))
    {result : Option BufPtr} {w' : World κ}
    (run : computeAllocGpuBuffer drm libc s.world ctx size domain alignment = .ok (result, w')) :
    RequestOk size ∧ s.Answer drm ctx rest size domain (toU64 alignment) result w' := by
  obtain ⟨word, foreign⟩ := legal
  have ok := requestOk_of_alloc drm libc word run
  refine ⟨ok, ?_⟩
  rcases @computeAllocGpuBuffer_outcomes κ drm ctx s.held rest size domain libc s.world
    alignment inv.1 ok foreign with ⟨-, -, -, refused, -⟩ |
      ⟨bo, handles, h', rest', k₁, k₂, -, alloc, created, outcome⟩
  · exact absurd (run.symm.trans refused) (by simp)
  rcases outcome with ⟨run', maps⟩ | ⟨h'', rest'', run', stops, abandoned, -⟩
  · obtain ⟨rfl, rfl⟩ := Prod.mk.inj (Except.ok.inj (run.symm.trans run'))
    exact .buffer alloc created maps
  · obtain ⟨rfl, rfl⟩ := Prod.mk.inj (Except.ok.inj (run.symm.trans run'))
    exact .nothing abandoned alloc.count created stops rfl

/-- A legal call that returned did one of the three. -/
theorem changed (inv : PoolInv s.world.heap ctx s.held rest) {c : Call} (legal : s.Legal ctx c)
    (run : s.call drm ctx c = .ok s') : s.Changed drm ctx rest s' := by
  cases c with
  | free bo =>
      obtain ⟨h', rest', free, released⟩ :=
        computeFreeGpuBuffer_spec drm inv.1 legal (inv.va_ne_zero legal)
      simp only [call, free, ok_bind] at run
      obtain rfl := Except.ok.inj run
      exact .freed legal rfl released rfl
  | alloc libc size domain alignment =>
      obtain ⟨⟨result, w'⟩, returned, held⟩ := bind_eq_ok.mp run
      obtain ⟨ok, answer⟩ := answer inv legal returned
      cases result with
      | some bo =>
          obtain rfl := Except.ok.inj held
          exact .allocated ok rfl answer
      | none =>
          obtain rfl := Except.ok.inj held
          exact .abandoned ok rfl answer

/-- The contexts are as they were. -/
theorem Changed.contexts (changed : s.Changed drm ctx rest s') :
    s'.world.heap.contexts = s.world.heap.contexts := by
  cases changed with
  | freed _ _ released => exact released.contexts
  | allocated _ _ answer => cases answer with | buffer alloc => exact alloc.contexts
  | abandoned _ _ answer => cases answer with | nothing abandoned => exact abandoned.contexts

/-- A buffer that is still held has the elements it had. -/
theorem Changed.others (changed : s.Changed drm ctx rest s') {b : BufPtr} (old : b ∈ s.held)
    {p : BufPtr} (own : p.block = b.block) : s'.world.heap.buffer p = s.world.heap.buffer p := by
  cases changed with
  | freed _ _ released => exact released.buffer p
  | allocated _ _ answer => cases answer with | buffer alloc => exact alloc.others b old p own
  | abandoned _ _ answer =>
      cases answer with | nothing abandoned => exact abandoned.others b old p own

/-- **What holds of each buffer.** -/
theorem Changed.each (changed : s.Changed drm ctx rest s') {P : Heap → BufPtr → Prop}
    (frame : ∀ {h h' : Heap} {b : BufPtr} {bufs : Finset BufPtr} {rest' : List Addr},
      PoolOwned h' ctx bufs rest' → b ∈ bufs → h'.contexts = h.contexts →
      (∀ p : BufPtr, p.block = b.block → h'.buffer p = h.buffer p) → P h b → P h' b)
    (new : ∀ {bo : BufPtr} {wholeSize domain alignment : Nat} {handles rest' : List Nat} {k : κ},
      RequestOk wholeSize →
      Allocated s.world.heap s'.world.heap ctx s.held rest wholeSize domain alignment bo handles
        rest' →
      Creates drm (s.world.heap.contexts.cell ctx).fd s.world.kernel
        (createRequests wholeSize domain alignment) handles k → P s'.world.heap bo)
    (all : ∀ b ∈ s.held, P s.world.heap b) : ∀ b ∈ s'.held, P s'.world.heap b := by
  intro b member
  have contexts := changed.contexts
  have others := fun old p => @Changed.others κ drm ctx s s' rest changed b old p
  cases changed with
  | freed _ held released =>
      rw [held] at member
      have old := Finset.mem_of_mem_erase member
      exact frame released.owned member contexts (others old) (all b old)
  | allocated ok held answer =>
      rw [held] at member
      cases answer with
      | buffer alloc created =>
          rcases Finset.mem_insert.mp member with rfl | old
          · exact new ok alloc created
          · exact frame alloc.owned (Finset.mem_insert_of_mem old) contexts (others old) (all b old)
  | abandoned _ held answer =>
      rw [held] at member
      cases answer with
      | nothing abandoned =>
          exact frame abandoned.owned member contexts (others member) (all b member)

end Client

/-! ## The context of the fragments -/

/-- Every fragment of the buffer is of the context. -/
def Heap.OwnFragments (h : Heap) (ctx : Addr) (bo : BufPtr) : Prop :=
  ∀ i < (h.buffer bo).fragmentNumber, (h.buffer (bo.add i)).ctx = ctx

theorem Allocated.ownFragments {h h' : Heap} {ctx : Addr} {bufs : Finset BufPtr}
    {rest rest' : List Addr} {wholeSize domain alignment : Nat} {bo : BufPtr} {handles : List Nat}
    (alloc : Allocated h h' ctx bufs rest wholeSize domain alignment bo handles rest')
    (ok : RequestOk wholeSize) : h'.OwnFragments ctx bo := by
  intro i hi
  rw [alloc.number ok, ← alloc.count] at hi
  rw [alloc.fragments i hi]
  simp only [fragment]

theorem Client.Changed.ownFragments {drm : Drm κ} {ctx : Addr} {rest : List Addr} {s s' : Client κ}
    (changed : s.Changed drm ctx rest s')
    (all : ∀ b ∈ s.held, s.world.heap.OwnFragments ctx b) :
    ∀ b ∈ s'.held, s'.world.heap.OwnFragments ctx b := by
  refine changed.each (P := fun h b => h.OwnFragments ctx b) ?_ ?_ all
  · intro h h' b bufs rest' _ _ _ same own i hi
    rw [same b rfl] at hi
    rw [same _ (BufPtr.add_block b i)]
    exact own i hi
  · intro bo wholeSize domain alignment handles rest' k ok alloc _
    exact alloc.ownFragments ok

/-- In every state of a legal run, the fragments of a buffer that is held are
of the context. -/
theorem legalSystem_ownFragments {drm : Drm κ} {view : Nat → κ → Kernel} (honest : drm.Honest view)
    (ctx : Addr) {s : Client κ} (reach : (legalSystem drm ctx).Reachable s) {bo : BufPtr}
    (held : bo ∈ s.held) : s.world.heap.OwnFragments ctx bo := by
  have keeps : (legalSystem drm ctx).Inductive fun s =>
      s.Ordered ctx ∧ ∀ b ∈ s.held, s.world.heap.OwnFragments ctx b := by
    constructor
    · intro s start
      refine ⟨(Client.inductive_ordered ctx honest).init s start, fun b member => ?_⟩
      obtain ⟨-, none, -⟩ := start
      rw [none] at member
      exact absurd member (Finset.notMem_empty b)
    · intro s c s' inv step
      obtain ⟨ordered, own⟩ := inv
      obtain ⟨rest, legal⟩ := id ordered
      exact ⟨ordered.call ctx honest step.1 step.2,
        (Client.changed legal.inv step.1 step.2).ownFragments own⟩
  exact (keeps.invariant reach).2 bo held

end RadeonsiCompute
