import RadeonsiCompute.Buffer.Legal
import RadeonsiCompute.Cs.Submit

/-!
# The relocation table in memory

`struct compute_relocs` is an array that grows by one entry at a time, with
`malloc` for the first and `realloc` for the others. `Holds` relates it to the
list the senders are modelled with, and `Holds.agree` says that they may be.
`compute_create_reloc_table` pushes the buffer of every node; since only the
first fragment of a buffer carries a fragment number, and the fragments of a
buffer are neighbours in the pool, each fragment is listed once and in address
order.
-/

namespace RadeonsiCompute

open Lib

/-- An allocated array of `cs_reloc_gem`. -/
structure RelocArray where
  count : Nat
  elem : Nat → CsRelocGem

/-- `struct compute_relocs`, a null pointer being `none`. -/
structure ComputeRelocs where
  relocNum : Nat
  relocs : Option RelocArray

namespace ComputeRelocs

/-- `compute_init_relocs`. -/
def computeInitRelocs : ComputeRelocs := { relocNum := 0, relocs := none }

/-- `realloc(old, count * sizeof(struct cs_reloc_gem))`: the old entries, and
behind them what the memory held. `realloc` of a null pointer is `malloc`. -/
def realloc (stale : Nat → CsRelocGem) (old : Option RelocArray) (count : Nat) : RelocArray where
  count := count
  elem i :=
    match old with
    | none => stale i
    | some old => if i < old.count then old.elem i else stale i

/-- `compute_push_reloc_unfragmented`; `stale` is what new memory holds, for an
array of each length. -/
def computePushRelocUnfragmented (stale : Nat → Nat → CsRelocGem) (crelocs : ComputeRelocs)
    (bo : GpuBuffer) : Except Fault ComputeRelocs :=
  let relocNum := if crelocs.relocNum = 0 then 1 else crelocs.relocNum + 1
  let relocs :=
    if crelocs.relocNum = 0 then realloc (stale 1) none 1
    else realloc (stale relocNum) crelocs.relocs relocNum
  if relocNum - 1 < relocs.count then
    let reloc : CsRelocGem :=
      { handle := bo.handle, readDomain := bo.domain, writeDomain := bo.domain, flags := 0 }
    let relocs := { relocs with elem := Function.update relocs.elem (relocNum - 1) reloc }
    .ok { relocNum := relocNum, relocs := some relocs }
  else .error .outOfBounds

/-- The loop of `compute_push_reloc`, from fragment `i` on. -/
def pushRelocLoop (stale : Nat → Nat → CsRelocGem) (h : Heap) (bo : BufPtr) :
    Nat → Nat → ComputeRelocs → Except Fault ComputeRelocs
  | 0, _, crelocs => .ok crelocs
  | count + 1, i, crelocs => do
      let b ← h.loadBuffer (bo.add i)
      let crelocs ← computePushRelocUnfragmented stale crelocs b
      pushRelocLoop stale h bo count (i + 1) crelocs

def computePushReloc (stale : Nat → Nat → CsRelocGem) (h : Heap) (crelocs : ComputeRelocs)
    (bo : BufPtr) : Except Fault ComputeRelocs := do
  let b ← h.loadBuffer bo
  pushRelocLoop stale h bo b.fragmentNumber 0 crelocs

/-- The walk of `compute_create_reloc_table` from node `n`. -/
def relocTableLoop (stale : Nat → Nat → CsRelocGem) (h : Heap) :
    Nat → Option Addr → ComputeRelocs → Except Fault ComputeRelocs
  | _, none, crelocs => .ok crelocs
  | 0, some _, _ => .error .diverges
  | fuel + 1, some n, crelocs => do
      let node ← h.nodes.load n
      let crelocs ← computePushReloc stale h crelocs node.bo
      relocTableLoop stale h fuel node.next crelocs

def computeCreateRelocTable (stale : Nat → Nat → CsRelocGem) (h : Heap) (ctx : Addr) :
    Except Fault ComputeRelocs := do
  let c ← h.contexts.load ctx
  let pool ← h.nodes.load c.vmPool
  relocTableLoop stale h h.nodes.live.card pool.next computeInitRelocs

/-- The entries of the table. -/
def entries (crelocs : ComputeRelocs) : List CsRelocGem :=
  match crelocs.relocs with
  | none => []
  | some relocs => (List.range crelocs.relocNum).map relocs.elem

/-- The table holds the entries `l` and has room for no other. -/
structure Holds (crelocs : ComputeRelocs) (l : List CsRelocGem) : Prop where
  num : crelocs.relocNum = l.length
  entries : crelocs.entries = l
  room : ∀ relocs, crelocs.relocs = some relocs → relocs.count = l.length

theorem holds_init : computeInitRelocs.Holds [] where
  num := rfl
  entries := rfl
  room _ found := absurd found (by simp [computeInitRelocs])

/-- A growth step adds one entry and keeps the others where they were. -/
theorem Holds.grow {crelocs : ComputeRelocs} {l : List CsRelocGem} (holds : crelocs.Holds l)
    (stale : Nat → Nat → CsRelocGem) (bo : GpuBuffer) :
    ∃ crelocs', computePushRelocUnfragmented stale crelocs bo = .ok crelocs' ∧
      crelocs'.Holds (l ++ [bo.reloc]) := by
  unfold computePushRelocUnfragmented
  cases l with
  | nil =>
      have empty : crelocs.relocNum = 0 := holds.num
      simp only [empty, if_true, realloc, Nat.sub_self, Nat.zero_lt_one]
      refine ⟨_, rfl, rfl, ?_, ?_⟩
      · simp [ComputeRelocs.entries, GpuBuffer.reloc]
      · rintro relocs ⟨⟩
        rfl
  | cons r l =>
      have num := holds.num
      rw [List.length_cons] at num
      have old := holds.entries
      cases array : crelocs.relocs with
      | none =>
          rw [ComputeRelocs.entries, array] at old
          exact absurd old (by simp)
      | some relocs =>
          have count := holds.room relocs array
          rw [List.length_cons] at count
          rw [ComputeRelocs.entries, array, num] at old
          simp only [num, Nat.add_sub_cancel, realloc, Nat.lt_succ_self, if_true,
            if_neg (Nat.succ_ne_zero l.length)]
          refine ⟨_, rfl, by simp, ?_, ?_⟩
          · -- the new cell is the last one, the cells before it are copied
            show List.map (Function.update _ _ _) (List.range (l.length + 1 + 1)) = _
            rw [List.range_succ, List.map_append, ← old]
            congr 1
            · refine List.map_congr_left fun i member => ?_
              have before := List.mem_range.mp member
              simp only [Function.update_of_ne (Nat.ne_of_lt before), count, if_pos before]
            · simp [GpuBuffer.reloc]
          · rintro relocs' ⟨⟩
            simp

/-! ## The list and the table -/

section Push

variable {h : Heap} {bo : BufPtr}

/-- The relocations of the fragments of a buffer. -/
def fragments (h : Heap) (bo : BufPtr) : List CsRelocGem :=
  (List.range' 0 (h.buffer bo).fragmentNumber).map fun i => (h.buffer (bo.add i)).reloc

theorem pushRelocLoop_agree (stale : Nat → Nat → CsRelocGem) (count : Nat) :
    ∀ (i : Nat) {l : List CsRelocGem} {crelocs : ComputeRelocs}, crelocs.Holds l →
      Alike (fun l crelocs => Holds crelocs l) (RadeonsiCompute.pushRelocLoop h bo count i l)
        (pushRelocLoop stale h bo count i crelocs) := by
  induction count with
  | zero => intro i l crelocs holds; exact .ok holds
  | succ count ih =>
      intro i l crelocs holds
      unfold RadeonsiCompute.pushRelocLoop pushRelocLoop
      cases h.loadBuffer (bo.add i) with
      | error f => exact .error f
      | ok b =>
          obtain ⟨grown, push, holds'⟩ := holds.grow stale b
          rw [ok_bind, ok_bind, push, ok_bind]
          exact ih (i + 1) holds'

/-- **The senders' list is the table**: `compute_push_reloc` of any buffers comes to the same on
the one and on the other. -/
theorem Holds.agree (stale : Nat → Nat → CsRelocGem) (bos : List BufPtr) {l : List CsRelocGem}
    {crelocs : ComputeRelocs} (holds : crelocs.Holds l) :
    Alike (fun l crelocs => Holds crelocs l) (bos.foldlM (RadeonsiCompute.computePushReloc h) l)
      (bos.foldlM (computePushReloc stale h) crelocs) := by
  refine Alike.foldlM (fun bo l crelocs holds => ?_) bos holds
  unfold RadeonsiCompute.computePushReloc computePushReloc
  cases h.loadBuffer bo with
  | error f => exact .error f
  | ok b => exact pushRelocLoop_agree stale b.fragmentNumber 0 holds

/-- Pushing buffers one by one lists their fragments one after the other. -/
theorem Holds.pushAll (stale : Nat → Nat → CsRelocGem) (bos : List BufPtr)
    {crelocs : ComputeRelocs} {l : List CsRelocGem} (holds : crelocs.Holds l)
    (valid : ∀ bo ∈ bos, h.ValidBuffer bo ∧
      ∀ i < (h.buffer bo).fragmentNumber, h.ValidBuffer (bo.add i)) :
    ∃ crelocs', bos.foldlM (computePushReloc stale h) crelocs = .ok crelocs' ∧
      crelocs'.Holds (l ++ bos.flatMap (fragments h)) := by
  have agree := @Holds.agree h stale bos l crelocs holds
  rw [foldlM_computePushReloc valid] at agree
  generalize bos.foldlM (computePushReloc stale h) crelocs = pushed at agree
  cases agree with
  | ok holds' => exact ⟨_, rfl, holds'⟩

end Push

/-! ## The table of a pool -/

section Table

variable {h : Heap} {ctx : Addr} {held : Finset BufPtr} {rest : List Addr}

/-- The walk pushes the buffer of each node in turn. -/
theorem relocTableLoop_eq (stale : Nat → Nat → CsRelocGem) (rest : List Addr) :
    ∀ {p : Option Addr} {fuel : Nat} {crelocs : ComputeRelocs},
      Linked (fun a => (h.nodes.cell a).next) (fun a => (h.nodes.cell a).prev) p rest none →
      (∀ a ∈ rest, a ∈ h.nodes.live) → rest.length ≤ fuel →
      relocTableLoop stale h fuel rest.head? crelocs =
        ((h.entries rest).map PoolEntry.bo).foldlM (computePushReloc stale h) crelocs := by
  induction rest with
  | nil =>
      intro p fuel crelocs _ _ _
      cases fuel <;> rfl
  | cons n rest ih =>
      intro p fuel crelocs linked live enough
      obtain ⟨-, next, linked'⟩ := linked
      have next' : (h.nodes.cell n).next = rest.head? := by simpa using next
      rw [List.length_cons] at enough
      cases fuel with
      | zero => omega
      | succ fuel =>
          simp only [List.head?_cons, relocTableLoop, Store.load_eq (live n List.mem_cons_self),
            ok_bind, Heap.entries_cons, List.map_cons, List.foldlM_cons, next']
          cases push : computePushReloc stale h crelocs (h.nodes.cell n).bo with
          | error e => rfl
          | ok pushed =>
              rw [ok_bind, ok_bind]
              apply ih linked'
              · intro a member
                exact live a (List.mem_cons_of_mem _ member)
              · omega

/-- Over whole groups, pushing every fragment's buffer pushes each fragment once. -/
theorem fragments_of_stacked {number : BufPtr → Nat} {l : List PoolEntry}
    (stacked : Stacked number l)
    (own : ∀ e ∈ l, (h.buffer e.parentBo).fragmentNumber = number e.parentBo)
    (none : ∀ e ∈ l, ∀ j, 0 < j → j < number e.parentBo →
      (h.buffer (e.parentBo.add j)).fragmentNumber = 0) :
    (l.map PoolEntry.bo).flatMap (fragments h) = l.map fun e => (h.buffer e.bo).reloc := by
  induction stacked with
  | nil => rfl
  | @group bo sizes last rest full positive stacked ih =>
      have bos := @appendEntries_bos bo 0 sizes last
      have member : ∃ e ∈ appendEntries bo 0 sizes last, e.parentBo = bo := by
        have nonempty : appendEntries bo 0 sizes last ≠ [] :=
          appendEntries_ne_nil (full ▸ positive)
        obtain ⟨e, member⟩ := List.exists_mem_of_ne_nil _ nonempty
        exact ⟨e, member, appendEntries_parent member⟩
      obtain ⟨first, inGroup, parent⟩ := member
      have owned := own first (List.mem_append_left _ inGroup)
      have others := none first (List.mem_append_left _ inGroup)
      rw [parent] at owned others
      rw [List.map_append, List.flatMap_append, List.map_append,
        ih (fun e inRest => own e (List.mem_append_right _ inRest))
          (fun e inRest => none e (List.mem_append_right _ inRest)), bos, full]
      congr 1
      -- the first fragment brings them all, the others bring none
      have whole : (appendEntries bo 0 sizes last).map (fun e => (h.buffer e.bo).reloc) =
          (List.range' 0 (number bo)).map fun i => (h.buffer (bo.add i)).reloc := by
        have same := congrArg (List.map fun p => (h.buffer p).reloc) bos
        rw [List.map_map, List.map_map, full] at same
        exact same
      rw [whole]
      obtain ⟨n, count⟩ : ∃ n, number bo = n + 1 := ⟨number bo - 1, by omega⟩
      have rest : ((List.range' 1 n).map bo.add).flatMap (fragments h) = [] := by
        refine List.flatMap_eq_nil_iff.mpr fun p inRange => ?_
        obtain ⟨j, hj, rfl⟩ := List.mem_map.mp inRange
        have bounds := List.mem_range'_1.mp hj
        rw [fragments, others j (by omega) (by omega)]
        rfl
      rw [count, List.range'_succ, List.map_cons, List.flatMap_cons, Nat.zero_add, rest,
        List.append_nil, BufPtr.add_zero, fragments, owned, count, List.range'_succ]

/-- The table of a pool in order. -/
theorem computeCreateRelocTable_spec (stale : Nat → Nat → CsRelocGem)
    (legal : LegalInv h ctx held rest) :
    ∃ crelocs, computeCreateRelocTable stale h ctx = .ok crelocs ∧
      crelocs.Holds ((h.entries rest).map fun e => (h.buffer e.bo).reloc) := by
  have headLive := legal.owned.pool.live _ List.mem_cons_self
  obtain ⟨-, next, linked⟩ := legal.owned.pool.linked
  have next' : (h.nodes.cell (h.vmPool ctx)).next = rest.head? := by simpa using next
  have live : ∀ a ∈ rest, a ∈ h.nodes.live := fun a member =>
    legal.owned.pool.live a (List.mem_cons_of_mem _ member)
  have enough : rest.length ≤ h.nodes.live.card := by
    have nodup := (List.nodup_cons.mp legal.owned.pool.nodup).2
    exact Store.length_le_card nodup live
  have valid : ∀ bo ∈ (h.entries rest).map PoolEntry.bo, h.ValidBuffer bo ∧
      ∀ i < (h.buffer bo).fragmentNumber, h.ValidBuffer (bo.add i) := by
    intro bo member
    obtain ⟨e, inRest, rfl⟩ := List.mem_map.mp member
    obtain ⟨held, j, hj, same⟩ := legal.owned.owned e inRest
    rw [same]
    refine ⟨legal.owned.validBuffer held hj, fun i hi => ?_⟩
    cases j with
    | zero =>
        rw [BufPtr.add_zero] at hi ⊢
        exact legal.owned.validBuffer held hi
    | succ j =>
        rw [legal.noNumber _ held _ (by omega) hj] at hi
        exact absurd hi (by omega)
  obtain ⟨crelocs, run, holds⟩ := Holds.pushAll stale _ holds_init valid
  rw [List.nil_append, fragments_of_stacked legal.stacked (fun _ _ => rfl) fun e member =>
    legal.noNumber e.parentBo (legal.owned.owned e member).1] at holds
  refine ⟨crelocs, ?_, holds⟩
  unfold Heap.vmPool at headLive next'
  simp only [computeCreateRelocTable, Store.load_eq legal.owned.ctxLive, ok_bind,
    Store.load_eq headLive, next']
  rw [relocTableLoop_eq stale rest linked live enough, run]

end Table

end ComputeRelocs

/-- **Every live fragment is listed once.** In every reachable pool the table
has one entry for each node but the reserved one, in address order, and those
nodes are the fragments of the buffers held, each once. Pushing any buffers one
by one lists their fragments one after the other, and no push disturbs the
entries before it. -/
theorem relocTable_complete {κ : Type} {drm : Drm κ} {view : Nat → κ → Kernel}
    (honest : drm.Honest view) (ctx : Addr) {s : Client κ}
    (reach : (legalSystem drm ctx).Reachable s) :
    (∀ stale, ∃ crelocs : ComputeRelocs,
      ComputeRelocs.computeCreateRelocTable stale s.world.heap ctx = .ok crelocs ∧
      crelocs.relocNum = (s.world.heap.poolNodes ctx).tail.length ∧
      crelocs.entries = (s.world.heap.poolNodes ctx).tail.map (fun a =>
        (s.world.heap.buffer (s.world.heap.nodes.cell a).bo).reloc) ∧
      ((s.world.heap.poolNodes ctx).tail.Pairwise fun a b =>
        (s.world.heap.nodes.cell a).va < (s.world.heap.nodes.cell b).va) ∧
      Set.BijOn (fun a => (s.world.heap.nodes.cell a).bo)
        {a | a ∈ (s.world.heap.poolNodes ctx).tail} (s.world.heap.fragmentsOf s.held)) ∧
    ∀ (stale : Nat → Nat → CsRelocGem) (h : Heap) (crelocs : ComputeRelocs) (l : List CsRelocGem),
        crelocs.Holds l →
      (∀ b, ∃ crelocs', ComputeRelocs.computePushRelocUnfragmented stale crelocs b = .ok crelocs' ∧
        crelocs'.Holds (l ++ [b.reloc])) ∧
      ∀ bos : List BufPtr, (∀ bo ∈ bos, h.ValidBuffer bo ∧
          ∀ i < (h.buffer bo).fragmentNumber, h.ValidBuffer (bo.add i)) →
        ∃ crelocs', bos.foldlM (ComputeRelocs.computePushReloc stale h) crelocs = .ok crelocs' ∧
          crelocs'.Holds (l ++ bos.flatMap (ComputeRelocs.fragments h)) := by
  refine ⟨fun stale => ?_, fun stale h crelocs l holds => ⟨holds.grow stale, fun bos valid =>
    ComputeRelocs.Holds.pushAll stale bos holds valid⟩⟩
  obtain ⟨rest, legal⟩ := (Client.inductive_ordered ctx honest).invariant reach
  have nodes : s.world.heap.poolNodes ctx = s.world.heap.vmPool ctx :: rest :=
    legal.owned.pool.poolNodes_eq
  obtain ⟨crelocs, run, holds⟩ := ComputeRelocs.computeCreateRelocTable_spec stale legal
  have coherent := legal.inv.coherent
  have increasing := coherent.increasing
  rw [nodes] at increasing
  refine ⟨crelocs, run, ?_, ?_, ?_, coherent.fragments⟩
  · rw [holds.num, nodes]
    simp [Heap.entries]
  · rw [holds.entries, nodes, Heap.entries, List.map_map]
    rfl
  · rw [nodes]
    exact (List.pairwise_cons.mp increasing).2

/-- Three fragments of two buffers. -/
theorem relocTable_complete_twoBuffers :
    ∃ s crelocs, Client.run (limitedDrm .above 10) (fun s c _ => s.Legal 0 c) .empty
        [.alloc .above 104857600 2 4096, .alloc .above 5000 4 4096] = some s ∧
      ComputeRelocs.computeCreateRelocTable (fun _ _ => ⟨7, 7, 7, 7⟩) s.world.heap 0 = .ok crelocs ∧
      crelocs.entries = [⟨1, 2, 2, 0⟩, ⟨2, 2, 2, 0⟩, ⟨3, 4, 4, 0⟩] := by
  obtain ⟨s, run, table⟩ := Option.map_eq_some_iff.mp (show
    (Client.run (limitedDrm .above 10) (fun s c _ => s.Legal 0 c) .empty
      [.alloc .above 104857600 2 4096, .alloc .above 5000 4 4096]).map (fun s =>
        (s.world.heap.poolNodes 0).tail.map fun a =>
          (s.world.heap.buffer (s.world.heap.nodes.cell a).bo).reloc) =
      some [⟨1, 2, 2, 0⟩, ⟨2, 2, 2, 0⟩, ⟨3, 4, 4, 0⟩] by decide +kernel)
  have reach := Client.reachable_of_run (limitedDrm .above 10) (fun s c _ => s.Legal 0 c)
    (fun _ => True) trivial run
  obtain ⟨all, -⟩ := relocTable_complete (limitedDrm_honest .above 10) 0 reach
  obtain ⟨crelocs, create, -, entries, -⟩ := all fun _ _ => ⟨7, 7, 7, 7⟩
  exact ⟨s, crelocs, run, create, entries.trans table⟩

end RadeonsiCompute
