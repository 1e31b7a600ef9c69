import RadeonsiCompute.Buffer.Placement

/-!
# All of an allocation or nothing

What `compute_alloc_gpu_buffer` leaves behind when the driver refuses one of
its requests. A refused `GEM_CREATE` is dereferenced as a null pointer. A
refused `RADEON_VA_MAP` is undone completely when the buffer has one fragment;
of a larger buffer only the first handle is closed.
-/

namespace RadeonsiCompute

open Lib

variable {κ : Type} {drm : Drm κ} {fd : Nat}

/-! ## The driver answers one way -/

theorem Creates.unique {k k₁ k₂ : κ} {args : List GemCreate} {handles handles' : List Nat}
    (one : Creates drm fd k args handles k₁) (other : Creates drm fd k args handles' k₂) :
    handles = handles' ∧ k₁ = k₂ := by
  induction one generalizing handles' with
  | nil =>
      cases other
      exact ⟨rfl, rfl⟩
  | cons create _ ih =>
      cases other with
      | cons create' rest' =>
          obtain ⟨handle, state⟩ := Prod.mk.inj (create.symm.trans create')
          obtain rfl := Option.some.inj handle
          subst state
          obtain ⟨rfl, rfl⟩ := ih rest'
          exact ⟨rfl, rfl⟩

/-- Where all requests were granted, none was refused. -/
theorem Creates.granted {k k₁ k' : κ} {first later : List GemCreate} {a : GemCreate}
    {handles handles' : List Nat} (all : Creates drm fd k (first ++ a :: later) handles k')
    (some : Creates drm fd k first handles' k₁) : (drm.gemCreate fd a k₁).1 ≠ none := by
  induction some generalizing handles with
  | nil =>
      rw [List.nil_append] at all
      cases all with
      | cons create _ =>
          rw [create]
          exact Option.some_ne_none _
  | cons create _ ih =>
      rw [List.cons_append] at all
      cases all with
      | cons create' rest =>
          obtain ⟨-, state⟩ := Prod.mk.inj (create.symm.trans create')
          subst state
          exact ih rest

/-- Where all fragments were created, none was refused. -/
theorem Creates.not_refused {k₀ k k₁ k' : κ} {size domain a : Nat} {handles handles' : List Nat}
    (created : Creates drm fd k₀ (createRequests size domain a) handles k₁)
    (few : handles'.length < fragmentCount size)
    (before : Creates drm fd k₀ ((List.range' 0 handles'.length).map (createArgs size domain a))
      handles' k) :
    drm.gemCreate fd (createArgs size domain a handles'.length) k ≠ (none, k') := by
  have whole : List.range' 0 (fragmentCount size) =
      List.range' 0 handles'.length ++ handles'.length ::
        List.range' (handles'.length + 1) (fragmentCount size - handles'.length - 1) := by
    have parts := @List.range'_append_1 0 handles'.length
      (fragmentCount size - handles'.length - 1 + 1)
    rw [Nat.zero_add] at parts
    rw [← List.range'_succ, parts]
    congr 1
    omega
  intro refusal
  rw [createRequests, whole, List.map_append, List.map_cons] at created
  have answered := created.granted before
  rw [refusal] at answered
  exact answered rfl

theorem Maps.not_stops {k k₁ k₂ : κ} {requests : List GemVa}
    (maps : Maps drm fd k requests k₁) : ¬ MapStops drm fd k requests k₂ := by
  rintro ⟨granted, va, later, k', answer, rfl, before, reply, refused⟩
  induction before with
  | nil =>
      rw [List.nil_append] at maps
      cases maps with
      | cons reply' accepted _ =>
          obtain ⟨rfl, -⟩ := Prod.mk.inj (reply.symm.trans reply')
          exact accepted refused
  | cons reply₀ _ _ ih =>
      rw [List.cons_append] at maps
      cases maps with
      | cons reply' _ rest =>
          obtain ⟨-, state⟩ := Prod.mk.inj (reply₀.symm.trans reply')
          subst state
          exact ih rest reply

/-- A refused mapping leaves the handles alone, and everything when it is the
first one. -/
theorem Drm.Keeps.stops {view : κ → Kernel} (keeps : drm.Keeps fd view) {k k' : κ}
    {requests : List GemVa} (stops : MapStops drm fd k requests k') :
    (view k').handles = (view k).handles ∧ (requests.length = 1 → view k' = view k) := by
  obtain ⟨granted, va, later, k₁, answer, rfl, maps, reply, refused⟩ := stops
  have last := keeps.notMapped reply refused
  refine ⟨by rw [last]; exact (keeps.maps maps).1, fun one => ?_⟩
  rw [List.length_append, List.length_cons] at one
  obtain rfl := List.eq_nil_of_length_eq_zero (show granted.length = 0 by omega)
  cases maps
  exact last

/-! ## Everything or nothing -/

/-- Pool, open handles and mappings are what they were. -/
structure NothingLeft (view : Nat → κ → Kernel) (fd : Nat) (w w' : World κ) : Prop where
  nodes : SameNodes w.heap w'.heap
  contexts : w'.heap.contexts = w.heap.contexts
  handles : (view fd w'.kernel).handles = (view fd w.kernel).handles
  mappings : (view fd w'.kernel).mappings = (view fd w.kernel).mappings

/-- A buffer with every fragment created and mapped, or `NULL` and nothing. -/
def AllOrNothing (drm : Drm κ) (view : Nat → κ → Kernel) (w : World κ) (ctx : Addr)
    (size domain : Nat) (a : Int) (result : Option BufPtr) (w' : World κ) : Prop :=
  (∃ bo handles k₁, result = some bo ∧ 0 < fragmentCount size ∧
    Creates drm (w.heap.contexts.cell ctx).fd w.kernel (createRequests size domain (toU64 a))
      handles k₁ ∧
    Maps drm (w.heap.contexts.cell ctx).fd k₁
      (w'.heap.mapRequests bo 0 radeonVmPageSnooped 0 (fragmentCount size)) w'.kernel) ∨
  result = none ∧ NothingLeft view (w.heap.contexts.cell ctx).fd w w'

section Cleanup

variable {view : Nat → κ → Kernel} {ctx : Addr} {bufs : Finset BufPtr} {rest : List Addr}
  {size domain : Nat} {handles : List Nat}

/-- Closing the only handle that was opened leaves nothing behind. -/
theorem Drm.Honest.close_one (honest : drm.Honest view) {k k₁ k₂ : κ} {args : List GemCreate}
    (created : Creates drm fd k args handles k₁) (one : args.length = 1)
    (same : view fd k₂ = view fd k₁) :
    (view fd (drm.gemClose fd (handles.headD 0) k₂)).handles = (view fd k).handles ∧
      (view fd (drm.gemClose fd (handles.headD 0) k₂)).mappings = (view fd k).mappings := by
  cases created with
  | nil => exact absurd one (by simp)
  | cons create rest =>
      rw [List.length_cons] at one
      obtain rfl := List.eq_nil_of_length_eq_zero (Nat.succ.inj one)
      cases rest
      obtain ⟨new, created⟩ := (honest.keeps fd).created create
      rw [(honest.keeps fd).closed, same, created]
      exact Kernel.close_create (honest.sound fd k) new _

/-- Closing the first of several handles leaves the second one open. -/
theorem Drm.Honest.leak (honest : drm.Honest view) {k k₁ k₂ : κ} {args : List GemCreate}
    (created : Creates drm fd k args handles k₁) (several : 2 ≤ args.length)
    (same : (view fd k₂).handles = (view fd k₁).handles) :
    (view fd (drm.gemClose fd (handles.headD 0) k₂)).handles ≠ (view fd k).handles := by
  have opened := (honest.keeps fd).opened created
  cases created with
  | nil => exact absurd several (by simp)
  | @cons k k' k₁ args handle rest handles create created =>
      cases created with
      | nil => exact absurd several (by simp)
      | @cons k' k'' k₁ args' handle' rest handles create' created =>
          intro closed
          have other : handle' ≠ handle := by
            have nodup := opened.nodup
            rintro rfl
            exact (List.nodup_cons.mp nodup).1 List.mem_cons_self
          have isNew := opened.new handle' (by simp)
          refine isNew ?_
          rw [← closed, (honest.keeps fd).closed]
          refine Finset.mem_erase.mpr ⟨other, ?_⟩
          rw [same, opened.handles]
          exact .inr (by simp)

/-- The cleanup after a refused mapping follows a null pointer when the
reserved node's stale `parent_bo` is the new buffer. -/
theorem cleanup_stale {w : World κ} (inv : PoolOwned w.heap ctx bufs rest) {h₁ h' : Heap}
    {bo : BufPtr} {l₁ news l₂ : List Addr} {wholeSize alignment : Nat}
    (new : NewBuffer ctx wholeSize domain alignment w.heap h₁ bo handles)
    (pool : IsPool h' (w.heap.vmPool ctx) (l₁ ++ news ++ l₂))
    (grew : Grew h₁ h' (w.heap.vmPool ctx :: rest) news)
    (stale : (w.heap.sentinel ctx).parentBo = bo) :
    computePoolFree h' ctx bo = .error .nullDeref := by
  have vmPool : (h'.contexts.cell ctx).vmPool = w.heap.vmPool ctx := by
    rw [grew.contexts, new.contexts]
    rfl
  have old : w.heap.vmPool ctx ∈ h₁.nodes.live := by
    rw [new.nodes]
    exact inv.pool.live _ List.mem_cons_self
  have ctxLive : ctx ∈ h'.contexts.live := by
    rw [grew.contexts, new.contexts]
    exact inv.ctxLive
  refine computePoolFree_stale ctxLive (by rw [vmPool]; exact pool) ?_
  rw [vmPool, grew.entry_old old, new.nodes]
  exact stale

theorem createRequests_length (size domain a : Nat) :
    (createRequests size domain a).length = fragmentCount size := by
  simp [createRequests]

/-- A cleanup that leaves nothing was that of a single fragment. -/
theorem one_of_nothingLeft (honest : drm.Honest view) (libc : Libc) {w w' : World κ} {a : Int}
    (inv : PoolOwned w.heap ctx bufs rest) (ok : RequestOk size)
    (foreign : (w.heap.sentinel ctx).parentBo ≠ ⟨libc.buffer.choose w.heap.buffers.live, 0⟩)
    (returned : computeAllocGpuBuffer drm libc w ctx size domain a = .ok (none, w'))
    (nothing : NothingLeft view (w.heap.contexts.cell ctx).fd w w') : fragmentCount size = 1 := by
  by_contra several
  have positive := fragmentCount_pos ok.1
  rcases @computeAllocGpuBuffer_outcomes κ drm ctx bufs rest size domain libc w a inv ok foreign
    with ⟨-, -, -, refused, -⟩ | ⟨bo, handles, h', rest', k₁, k₂, -, -, created, result⟩
  · exact absurd (returned.symm.trans refused) (by simp)
  rcases result with ⟨run, -⟩ | ⟨h'', rest'', run, stops, -⟩
  · exact absurd (returned.symm.trans run) (by simp)
  · obtain ⟨-, rfl⟩ := Prod.mk.inj (Except.ok.inj (returned.symm.trans run))
    refine honest.leak created (by rw [createRequests_length]; omega) ?_ nothing.handles
    exact ((honest.keeps _).stops stops).1

/-- A single fragment that was created is mapped or closed again. -/
theorem allOrNothing_of_one (honest : drm.Honest view) (libc : Libc) {w : World κ} {a : Int}
    (inv : PoolOwned w.heap ctx bufs rest) (ok : RequestOk size)
    (foreign : (w.heap.sentinel ctx).parentBo ≠ ⟨libc.buffer.choose w.heap.buffers.live, 0⟩)
    (one : fragmentCount size = 1) {k₁ : κ}
    (created : Creates drm (w.heap.contexts.cell ctx).fd w.kernel
      (createRequests size domain (toU64 a)) handles k₁) :
    ∃ result w', computeAllocGpuBuffer drm libc w ctx size domain a = .ok (result, w') ∧
      AllOrNothing drm view w ctx size domain a result w' := by
  rcases @computeAllocGpuBuffer_outcomes κ drm ctx bufs rest size domain libc w a inv ok foreign
    with ⟨handles', k, k', -, few, before, refusal⟩ |
      ⟨bo, handles', h', rest', k₁', k₂, -, alloc, created', result⟩
  · exact absurd refusal (created.not_refused few before)
  obtain ⟨rfl, rfl⟩ := created.unique created'
  rcases result with ⟨run, maps⟩ | ⟨h'', rest'', run, stops, abandoned, same⟩
  · exact ⟨_, _, run, .inl ⟨_, handles, k₁, rfl, fragmentCount_pos ok.1, created, maps⟩⟩
  · have alone := ((honest.keeps _).stops stops).2 (by simp [Heap.mapRequests, one])
    obtain ⟨open_, mapped⟩ :=
      honest.close_one created (by rw [createRequests_length, one]) alone
    exact ⟨_, _, run, .inr ⟨rfl, same, abandoned.contexts, open_, mapped⟩⟩

end Cleanup

/-- **All or nothing, exactly when.** In every reachable state, for every
`size_t` size and every pattern of refusals, the call returns and leaves all of
the buffer or nothing of it if and only if the request has 1 to 2^32 - 1
fragments, all of them are created, and all of them are mapped unless there is
only one (whose pointer is not the one that the reserved node happens to hold). -/
theorem allOrNothing_iff {drm : Drm κ} {view : Nat → κ → Kernel} (honest : drm.Honest view)
    (ctx : Addr) {s : Client κ} (reach : (legalSystem drm ctx).Reachable s) (libc : Libc)
    {size : Nat} (domain : Nat) (a : Int) (word : size < 2 ^ 64) :
    (∃ result w', computeAllocGpuBuffer drm libc s.world ctx size domain a = .ok (result, w') ∧
      AllOrNothing drm view s.world ctx size domain a result w') ↔
    RequestOk size ∧ ∃ handles k₁,
      Creates drm (s.world.heap.contexts.cell ctx).fd s.world.kernel
        (createRequests size domain (toU64 a)) handles k₁ ∧
      (fragmentCount size = 1 ∧ (s.world.heap.sentinel ctx).parentBo ≠
          ⟨libc.buffer.choose s.world.heap.buffers.live, 0⟩ ∨
        ∃ k₂, Maps drm (s.world.heap.contexts.cell ctx).fd k₁
          (mapRequestsAt (startAddress (firstFragment ctx size domain (toU64 a) handles)
            (s.ranges ctx)) handles) k₂) := by
  obtain ⟨rest, legal⟩ := (Client.inductive_ordered ctx honest).invariant reach
  have ranges : s.ranges ctx = s.world.heap.sentinel ctx :: s.world.heap.entries rest :=
    legal.owned.ranges_eq
  rw [ranges]
  constructor
  · rintro ⟨result, w', returned, outcome⟩
    have ok := requestOk_of_alloc drm libc word returned
    refine ⟨ok, ?_⟩
    rcases @computeAllocGpuBuffer_parts κ drm ctx s.held rest size domain libc s.world a
      legal.owned ok with ⟨-, -, -, refused, -⟩ |
        ⟨handles, h₁, h', l₁, news, l₂, k₁, k₂, new, -, created, -, -, pool, grew, -, -, parts⟩
    · exact absurd (returned.symm.trans refused) (by simp)
    refine ⟨handles, k₁, created, ?_⟩
    rcases parts with ⟨-, maps⟩ | ⟨run, stops⟩
    · exact .inr ⟨k₂, maps⟩
    -- the cleanup ran: it returned `NULL`, from a pool whose first node is not the buffer's
    refine .inl ?_
    have foreign : (s.world.heap.sentinel ctx).parentBo ≠
        ⟨libc.buffer.choose s.world.heap.buffers.live, 0⟩ := by
      intro stale
      rw [run, cleanup_stale legal.owned new pool grew stale] at returned
      exact absurd returned (by simp)
    refine ⟨?_, foreign⟩
    have null : result = none := by
      rw [run] at returned
      obtain ⟨_, -, returned⟩ := bind_eq_ok.mp returned
      obtain ⟨_, -, returned⟩ := bind_eq_ok.mp returned
      obtain ⟨_, -, returned⟩ := bind_eq_ok.mp returned
      exact (Prod.mk.inj (Except.ok.inj returned)).1.symm
    rcases outcome with ⟨bo, -, -, isSome, -⟩ | ⟨-, nothing⟩
    · exact absurd (null.symm.trans isSome) (by simp)
    exact one_of_nothingLeft honest libc legal.owned ok foreign (null ▸ returned) nothing
  · rintro ⟨ok, handles, k₁, created, ⟨one, foreign⟩ | ⟨k₂, maps⟩⟩
    · exact allOrNothing_of_one honest libc legal.owned ok foreign one created
    rcases @computeAllocGpuBuffer_parts κ drm ctx s.held rest size domain libc s.world a
      legal.owned ok with ⟨handles', k, k', -, few, before, refusal⟩ |
        ⟨handles', h₁, h', l₁, news, l₂, k₁', k₂', -, -, created', -, -, -, -, requests, -, parts⟩
    · exact absurd refusal (created.not_refused few before)
    obtain ⟨rfl, rfl⟩ := created.unique created'
    rcases parts with ⟨run, maps'⟩ | ⟨-, stops⟩
    · refine ⟨_, _, run, .inl ⟨_, handles, k₁, rfl, fragmentCount_pos ok.1, created, ?_⟩⟩
      rw [requests]
      exact maps'
    · exact absurd stops maps.not_stops

/-- A request of one fragment in a pool of two buffers. -/
theorem allOrNothing_oneFragment :
    ∃ s, Client.run (limitedDrm .above 10) (fun s c _ => s.Legal 0 c) .empty
        [.alloc .above 104857600 2 4096, .alloc .above 5000 2 4096] = some s ∧
      ∃ result w', computeAllocGpuBuffer (limitedDrm .above 10) .above s.world 0 5000 2 4096 =
          .ok (result, w') ∧
        AllOrNothing (limitedDrm .above 10) (fun _ k => k.1) s.world 0 5000 2 4096 result w' := by
  obtain ⟨s, run, facts⟩ := Option.map_eq_some_iff.mp (show
    (Client.run (limitedDrm .above 10) (fun s c _ => s.Legal 0 c) .empty
      [.alloc .above 104857600 2 4096, .alloc .above 5000 2 4096]).map (fun s =>
        decide (s.world.kernel.1.handles.card < 10 ∧ (s.world.heap.sentinel 0).parentBo ≠
          ⟨Libc.above.buffer.choose s.world.heap.buffers.live, 0⟩)) = some true by decide +kernel)
  obtain ⟨room, foreign⟩ := of_decide_eq_true facts
  have reach := Client.reachable_of_run (limitedDrm .above 10) (fun s c _ => s.Legal 0 c)
    (fun _ => True) trivial run
  have one : fragmentCount 5000 = 1 := by
    rw [fragmentCount, fragmentSize_eq]
  have requests : createRequests 5000 2 (toU64 4096) = [createArgs 5000 2 (toU64 4096) 0] := by
    rw [createRequests, one]
    rfl
  refine ⟨s, run, (allOrNothing_iff (limitedDrm_honest .above 10) 0 reach .above 2 4096
    (by decide)).mpr ⟨requestOk_of_le (by decide) (by decide), ?_⟩⟩
  obtain ⟨handle, k₁, create⟩ : ∃ handle k₁, (limitedDrm .above 10).gemCreate
      (s.world.heap.contexts.cell 0).fd (createArgs 5000 2 (toU64 4096) 0) s.world.kernel =
        (some handle, k₁) := ⟨_, _, if_pos room⟩
  rw [requests]
  exact ⟨[handle], k₁, .cons create .nil, .inl ⟨one, foreign⟩⟩

/-- When the driver has no object to give, the call follows a null pointer. -/
theorem not_allOrNothing_refusedCreate :
    ∃ s, (legalSystem (limitedDrm .above 0) 0).Reachable s ∧
      computeAllocGpuBuffer (limitedDrm .above 0) .above s.world 0 1 2 4096 = .error .nullDeref := by
  obtain ⟨s, run, failed⟩ := Option.map_eq_some_iff.mp (show
    (Client.run (limitedDrm .above 0) (fun s c _ => s.Legal 0 c) .empty []).map (fun s =>
      faultOf (computeAllocGpuBuffer (limitedDrm .above 0) .above s.world 0 1 2 4096)) =
      some (some .nullDeref) by decide +kernel)
  exact ⟨s, Client.reachable_of_run (limitedDrm .above 0) (fun s c _ => s.Legal 0 c)
    (fun _ => True) trivial run, faultOf_eq_some.mp failed⟩

end RadeonsiCompute
