import RadeonsiCompute.Buffer.Driver
import RadeonsiCompute.Pool.Groups

/-!
# Runs with requests of any size

A caller that asks for buffers of any `size_t` size from a driver that may
refuse any request. As long as its calls return, the pool stays what
`LegalInv` says: owned by the buffers held, laid out in order, the fragments of
a buffer side by side and in order, every address at the same offset in its
page. `requestOk_of_alloc` says which requests return at all.
-/

namespace RadeonsiCompute

open Lib

variable {κ : Type}

namespace Client

/-- Requests of any size, and releases of buffers that are held. `calloc` must
not return the pointer that the reserved node happens to hold. -/
def Legal (ctx : Addr) (s : Client κ) : Call → Prop
  | .alloc libc size _ _ => size < 2 ^ 64 ∧
      (s.world.heap.sentinel ctx).parentBo ≠ ⟨libc.buffer.choose s.world.heap.buffers.live, 0⟩
  | .free bo => bo ∈ s.held

instance (ctx : Addr) (s : Client κ) : (c : Call) → Decidable (s.Legal ctx c)
  | .alloc libc size _ _ => inferInstanceAs (Decidable (size < 2 ^ 64 ∧
      (s.world.heap.sentinel ctx).parentBo ≠ ⟨libc.buffer.choose s.world.heap.buffers.live, 0⟩))
  | .free bo => inferInstanceAs (Decidable (bo ∈ s.held))

end Client

/-- Any run of legal calls that return. -/
abbrev legalSystem (drm : Drm κ) (ctx : Addr) : TSys (Client κ) Call :=
  callerSystem drm ctx (fun _ => True) fun s c _ => s.Legal ctx c

/-- What legal calls keep true of the pool. -/
structure LegalInv (h : Heap) (ctx : Addr) (held : Finset BufPtr) (rest : List Addr) : Prop where
  owned : PoolOwned h ctx held rest
  layout : PoolLayout (h.sentinel ctx) (h.entries rest)
  stacked : Stacked (fun b => (h.buffer b).fragmentNumber) (h.entries rest)
  noNumber : ∀ b ∈ held, ∀ j, 0 < j → j < (h.buffer b).fragmentNumber →
    (h.buffer (b.add j)).fragmentNumber = 0
  residue : ∀ e ∈ h.entries rest, e.va % 4096 = (h.sentinel ctx).size % 4096 ∧ 4096 ∣ e.size

namespace LegalInv

variable {h h' : Heap} {ctx : Addr} {held : Finset BufPtr} {rest rest' : List Addr}

theorem inv (legal : LegalInv h ctx held rest) : PoolInv h ctx held rest :=
  ⟨legal.owned, legal.layout⟩

/-- Nothing is left of a call that changed neither the ranges nor the buffers. -/
theorem congr (legal : LegalInv h ctx held rest) (owned : PoolOwned h' ctx held rest')
    (sentinel : h'.sentinel ctx = h.sentinel ctx) (entries : h'.entries rest' = h.entries rest)
    (others : ∀ b ∈ held, ∀ p : BufPtr, p.block = b.block → h'.buffer p = h.buffer p) :
    LegalInv h' ctx held rest' where
  owned := owned
  layout := by
    rw [sentinel, entries]
    exact legal.layout
  stacked := by
    rw [entries]
    refine legal.stacked.congr fun e member => ?_
    rw [others _ (legal.owned.owned e member).1 e.parentBo rfl]
  noNumber b hb j positive inRange := by
    rw [others b hb b rfl] at inRange
    rw [others b hb (b.add j) rfl]
    exact legal.noNumber b hb j positive inRange
  residue := by
    rw [sentinel, entries]
    exact legal.residue

theorem free (legal : LegalInv h ctx held rest) {bo : BufPtr}
    (released : Released h h' ctx held rest bo rest') : LegalInv h' ctx (held.erase bo) rest' where
  owned := released.owned
  layout := by
    rw [released.sentinel, released.entries]
    exact legal.layout.sublist List.filter_sublist
  stacked := by
    rw [released.entries]
    refine (legal.stacked.release bo).congr fun e _ => ?_
    rw [released.buffer]
  noNumber b hb j positive inRange := by
    rw [released.buffer] at inRange ⊢
    exact legal.noNumber b (Finset.mem_of_mem_erase hb) j positive inRange
  residue := by
    rw [released.sentinel, released.entries]
    intro e member
    exact legal.residue e (List.mem_of_mem_filter member)

theorem alloc (legal : LegalInv h ctx held rest) {wholeSize domain alignment : Nat} {bo : BufPtr}
    {handles : List Nat} (ok : RequestOk wholeSize)
    (alloc : Allocated h h' ctx held rest wholeSize domain alignment bo handles rest')
    (below : Below (h'.sentinel ctx :: h'.entries rest')) :
    LegalInv h' ctx (insert bo held) rest' := by
  have number := alloc.number ok
  have positive := fragmentCount_pos ok.1
  refine ⟨alloc.owned, alloc.layout legal.layout below, ?_, ?_, ?_⟩
  · -- the old groups, and the new one in a gap or at the end
    have old : Stacked (fun b => (h'.buffer b).fragmentNumber) (h.entries rest) := by
      refine legal.stacked.congr fun e member => ?_
      rw [alloc.others _ (legal.owned.owned e member).1 e.parentBo rfl]
    have full : (rangeSizes wholeSize).length = (h'.buffer bo).fragmentNumber := by
      rw [rangeSizes_length, number]
    obtain ⟨l', result, stacked⟩ := old.place legal.layout.ordered legal.layout.below full
      (by rw [number]; exact positive)
      (@rangeSizes_single wholeSize ctx domain alignment (handles.headD 0))
    have placed := alloc.placed
    rw [result, alloc.sentinel] at placed
    rw [(List.cons.inj placed).2]
    exact stacked
  · intro b hb j later inRange
    rcases Finset.mem_insert.mp hb with rfl | old
    · rw [number] at inRange
      rw [alloc.fragments j (by rw [alloc.count]; exact inRange)]
      simp only [fragment, if_neg (show ¬ j = 0 by omega)]
    · rw [alloc.others b old b rfl] at inRange
      rw [alloc.others b old (b.add j) rfl]
      exact legal.noNumber b old j later inRange
  · rw [alloc.sentinel]
    intro e member
    have first : ((h.sentinel ctx).va + (h.sentinel ctx).size) % 4096 =
        (h.sentinel ctx).size % 4096 := by
      rw [legal.layout.base, Nat.zero_add]
    have residue := @place_residue bo
      (firstFragment ctx wholeSize domain alignment handles) (rangeSizes wholeSize) _ _ _ first
      legal.residue (by rw [fragment_vaSize]; exact vaSizeOf_page fragmentBytes_le) (by
        intro size inSizes
        obtain ⟨j, -, rfl⟩ := List.mem_map.mp inSizes
        exact vaSizeOf_page fragmentBytes_le)
    rw [← alloc.placed, alloc.sentinel] at residue
    rcases residue e (List.mem_cons_of_mem _ member) with same | paged
    · -- the reserved range starts at zero, the others do not
      have above := (alloc.layout legal.layout below).va_pos member
      rw [same, legal.layout.base] at above
      exact absurd above (by omega)
    · exact paged

end LegalInv

/-! ## What one allocation returns -/

section

variable (drm : Drm κ) {view : Nat → κ → Kernel} {h h' : Heap} {ctx : Addr}
  {held : Finset BufPtr} {rest rest' : List Addr} {wholeSize domain alignment : Nat}
  {bo : BufPtr} {handles : List Nat}

/-- An honest driver that mapped all fragments mapped them below 2^64. -/
theorem Drm.Honest.below {drm : Drm κ} (honest : drm.Honest view) {fd : Nat} {k k₁ k₂ : κ}
    (layout : PoolLayout (h.sentinel ctx) (h.entries rest))
    (alloc : Allocated h h' ctx held rest wholeSize domain alignment bo handles rest')
    (creates : Creates drm fd k (createRequests wholeSize domain alignment) handles k₁)
    (maps : Maps drm fd k₁
      (h'.mapRequests bo 0 radeonVmPageSnooped 0 (fragmentCount wholeSize)) k₂) :
    Below (h'.sentinel ctx :: h'.entries rest') := by
  have opened := (honest.keeps fd).opened creates
  have inside := honest.inside_of_maps maps
  obtain ⟨news, perm, bos, -⟩ := alloc.entries_perm
  intro e member
  rcases List.mem_cons.mp member with rfl | inRest
  · rw [alloc.sentinel]
    exact layout.below _ List.mem_cons_self
  rcases List.mem_append.mp (perm.mem_iff.mp inRest) with old | isNew
  · exact layout.below e (List.mem_cons_of_mem _ old)
  · have inBos : e.bo ∈ news.map PoolEntry.bo := List.mem_map_of_mem isNew
    rw [bos] at inBos
    obtain ⟨j, inRange, same⟩ := List.mem_map.mp inBos
    have hj : j < fragmentCount wholeSize := by simpa using inRange
    have bound := inside _ (List.mem_map_of_mem inRange)
    have hj' : j < handles.length := by rw [alloc.count]; exact hj
    have own := alloc.fragments j hj'
    -- the object behind the handle is as large as the range
    have sizes := congrArg (fun l => l[j]?) opened.sizes
    simp only [createRequests, List.getElem?_map, List.getElem?_eq_getElem hj',
      List.getElem?_range' hj, Option.map_some, Option.some.injEq, Nat.one_mul, Nat.zero_add,
      objectBytes_createArgs] at sizes
    obtain ⟨va, size⟩ := alloc.owned.agree e inRest
    rw [← same] at va size
    rw [va, size]
    rw [mapRequest, show (h'.buffer (bo.add j)).handle = handles[j] by rw [own]; simp only [fragment],
      sizes] at bound
    have vaSize : (h'.buffer (bo.add j)).vaSize = vaSizeOf (fragmentBytes wholeSize j) := by
      rw [own]
      simp only [fragment]
    rw [vaSize]
    exact bound

/-- Only requests of 1 to 2^32 - 1 fragments are answered. -/
theorem requestOk_of_alloc (libc : Libc) {w : World κ} {size : Nat} {a : Int}
    {r : Option BufPtr × World κ} (word : size < 2 ^ 64)
    (returned : computeAllocGpuBuffer drm libc w ctx size domain a = .ok r) : RequestOk size := by
  obtain ⟨⟨buf, w₁⟩, fragmented, rest⟩ := bind_eq_ok.mp returned
  cases buf with
  | none => exact absurd rest (by simp)
  | some buf =>
      by_cases positive : 0 < size
      · rcases requestOk_of_answer drm libc positive word fragmented with ok | ⟨none, -⟩
        · exact ok
        · exact absurd none (by simp)
      · -- no fragment: `calloc` of no elements, and the pool reads the first one
        obtain rfl : size = 0 := by omega
        have number : sub64 (add64 0 fragmentSize) 1 / fragmentSize = 0 := by
          have positive := fragmentSize_pos
          have small := fragmentSize_lt
          rw [add64_of_lt (by omega), sub64_of_le (by omega) (by omega)]
          exact Nat.div_eq_of_lt (by omega)
        rw [computeAllocFragmentedBuffer, number, Heap.callocBuffers_eq, ok_bind] at fragmented
        obtain ⟨c, -, fragmented⟩ := bind_eq_ok.mp fragmented
        obtain ⟨fuel, enough⟩ : ∃ fuel, indexRange = fuel + 1 :=
          ⟨indexRange - 1, by rw [indexRange_eq]; rfl⟩
        rw [enough, fragmentLoop, if_neg (by omega), ok_bind] at fragmented
        simp only [if_true, Except.ok.injEq, Prod.mk.injEq, Option.some.injEq] at fragmented
        obtain ⟨rfl, rfl⟩ := fragmented
        have missing : (w.heap.withArray (libc.buffer.choose w.heap.buffers.live) 0).loadBuffer
            ⟨libc.buffer.choose w.heap.buffers.live, 0⟩ = .error .outOfBounds := by
          unfold Heap.loadBuffer
          rw [Store.load_eq (Finset.mem_insert_self _ _), ok_bind, Heap.withArray_cell, if_pos rfl]
          rfl
        dsimp only at rest
        rw [computePoolAlloc, missing] at rest
        exact absurd rest (by simp)

end

/-! ## The invariant over runs -/

/-- The pool of a new context. -/
theorem LegalInv.create {libc : Libc} {h h' : Heap} {ctx : Addr} {reservedMem : Nat}
    (ctxLive : ctx ∈ h.contexts.live) (small : reservedMem + 4096 < 2 ^ 64)
    (run : createVmPool libc h ctx reservedMem = .ok h') : LegalInv h' ctx ∅ [] := by
  obtain ⟨h₁, run', ⟨owned, layout⟩, -⟩ := createVmPool_spec libc ctxLive small
  obtain rfl : h₁ = h' := by simpa [run] using run'.symm
  exact ⟨owned, layout, .nil, fun b hb => absurd hb (Finset.notMem_empty b),
    fun e member => absurd member (by simp)⟩

/-- A legal call that returns keeps the invariant, and the reserved node. -/
theorem LegalInv.call {drm : Drm κ} {view : Nat → κ → Kernel} (honest : drm.Honest view)
    {ctx : Addr} {s s' : Client κ} {rest : List Addr}
    (inv : LegalInv s.world.heap ctx s.held rest) {c : Call} (legal : s.Legal ctx c)
    (run : s.call drm ctx c = .ok s') :
    (∃ rest', LegalInv s'.world.heap ctx s'.held rest') ∧
      s'.world.heap.sentinel ctx = s.world.heap.sentinel ctx := by
  cases c with
  | free bo =>
      obtain ⟨h', rest', free, released⟩ :=
        computeFreeGpuBuffer_spec drm inv.owned legal (inv.inv.va_ne_zero legal)
      simp only [Client.call, free, ok_bind] at run
      obtain rfl := Except.ok.inj run
      exact ⟨⟨rest', inv.free released⟩, released.sentinel⟩
  | alloc libc size domain alignment =>
      obtain ⟨word, foreign⟩ := legal
      obtain ⟨⟨result, w'⟩, returned, held⟩ := bind_eq_ok.mp run
      have ok := requestOk_of_alloc drm libc word returned
      rcases @computeAllocGpuBuffer_outcomes κ drm ctx s.held rest size domain libc s.world
        alignment inv.owned ok foreign with ⟨-, -, -, refused, -⟩ |
          ⟨bo, handles, h', rest', k₁, k₂, -, alloc, created, outcome⟩
      · exact absurd (returned.symm.trans refused) (by simp)
      rcases outcome with ⟨run', maps⟩ | ⟨h'', rest'', run', -, abandoned, -⟩
      · obtain ⟨rfl, rfl⟩ := Prod.mk.inj (Except.ok.inj (returned.symm.trans run'))
        obtain rfl := Except.ok.inj held
        have below := honest.below inv.layout alloc created maps
        exact ⟨⟨rest', inv.alloc ok alloc below⟩, alloc.sentinel⟩
      · obtain ⟨rfl, rfl⟩ := Prod.mk.inj (Except.ok.inj (returned.symm.trans run'))
        obtain rfl := Except.ok.inj held
        exact ⟨⟨rest'', inv.congr abandoned.owned abandoned.sentinel abandoned.entries
          abandoned.others⟩, abandoned.sentinel⟩

namespace Client

variable {view : Nat → κ → Kernel} (ctx : Addr)

/-- The state invariant. -/
def Ordered (s : Client κ) : Prop := ∃ rest, LegalInv s.world.heap ctx s.held rest

/-- A legal call that returns keeps the invariant. -/
theorem Ordered.call {s s' : Client κ} (ordered : s.Ordered ctx) {drm : Drm κ}
    (honest : drm.Honest view) {c : Call} (legal : s.Legal ctx c)
    (run : s.call drm ctx c = .ok s') : s'.Ordered ctx := by
  obtain ⟨rest, inv⟩ := ordered
  exact (inv.call honest legal run).1

theorem inductive_ordered {drm : Drm κ} (honest : drm.Honest view) :
    (legalSystem drm ctx).Inductive (Ordered ctx) where
  init s start := by
    obtain ⟨-, held, libc, h, reservedMem, ctxLive, small, run⟩ := start
    refine ⟨[], ?_⟩
    rw [held]
    exact .create ctxLive small run
  step s c s' inv hstep := inv.call ctx honest hstep.1 hstep.2

end Client

end RadeonsiCompute
