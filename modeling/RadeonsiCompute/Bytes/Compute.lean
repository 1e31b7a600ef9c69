import RadeonsiCompute.Bytes.Runs
import RadeonsiCompute.Ring.Launch

/-!
# What kernels compute

The calls of the library with launches among them. Several launches are handed
in one after the other and waited for with `waitBuffer`; what each makes of the
buffers is what its kernel is known to make of them, started with the registers
the launch asks for. So a program, its input and its output are parts of arrays,
and what is read back is what the program computes, whichever rings and
processes are at work meanwhile.
-/

namespace RadeonsiCompute

open Lib

variable {κ κ' : Type}

/-- A platform on which streams start kernels. -/
structure Computer (κ κ' : Type) extends Platform κ κ' where
  kernel : (Nat → Dword) → (Nat → Byte) → (Nat → Byte) → Prop
  runs : RunsStreams effect fd kernel

namespace Machine

/-- The arrays of the buffers held, where the hardware sees `mem`. -/
def arraysAt (s : Machine κ κ') (mem : Nat → Byte) : Arrays BufPtr Byte := fun bo =>
  if bo ∈ s.client.held then
    some ((List.range (s.heap.totalSize bo)).map fun o => mem ((s.heap.buffer bo).va + o))
  else none

/-- What the kernel makes of the arrays when it is started for the launch. -/
def Contract (kernel : (Nat → Dword) → (Nat → Byte) → (Nat → Byte) → Prop) (s : Machine κ κ')
    (args : LaunchArgs) (r : Arrays BufPtr Byte → Arrays BufPtr Byte → Prop) : Prop :=
  ∀ regs mem mem', Started args (.ofNat 64 (s.heap.buffer args.code).va) regs →
    kernel regs mem mem' → r (s.arraysAt mem) (s.arraysAt mem')

/-- Launches of programs in buffers held, on buffers held, and a buffer held to wait for. -/
structure LaunchesAsked (s : Machine κ κ') (argss : List LaunchArgs) (bo : BufPtr) : Prop where
  checked : ∀ args ∈ argss, args.Checked
  code : ∀ args ∈ argss, args.code ∈ s.client.held
  used : ∀ args ∈ argss, ∀ b ∈ args.usedMemories, b ∈ s.client.held
  held : bo ∈ s.client.held

end Machine

namespace Computer

variable (p : Computer κ κ') (ctx : Addr)

/-- A call that returned, or launches that were waited for. -/
inductive Step : Machine κ κ' → ComputeOp BufPtr Byte → Machine κ κ' → Prop
  | call {s op s'} : s.Step p.toPlatform ctx op s' → Step s (.array op) s'
  | launches {s s' argss bo rs stale w} : s.LaunchesAsked argss bo →
      List.Forall₂ (s.Contract p.kernel) argss rs →
      argss.foldlM (fun w args =>
        launch p.patientDrm s.heap ctx args w) s.cs = .ok w →
      waitBuffer stale p.patientDrm s.heap ctx bo w = .ok s'.cs →
      s'.client = s.client → (s'.kernel p.toPlatform).Shows s'.vram (s'.mem p.toPlatform) →
      Step s (.compute rs) s'

end Computer

/-- A process with a new context and nothing in the rings, its calls and its launches. -/
def computerSystem (p : Computer κ κ') (ctx : Addr) :
    TSys (Machine κ κ') (ComputeOp BufPtr Byte) where
  init := (machineSystem p.toPlatform ctx).init
  step := p.Step ctx

/-! ## What a part holds -/

/-- A part of a buffer, byte by byte. -/
theorem Machine.arraysAt_holds {s : Machine κ κ'} {bo : BufPtr} (held : bo ∈ s.client.held)
    {offset : Nat} {data : List Byte} (inside : offset + data.length ≤ s.heap.totalSize bo)
    (mem : Nat → Byte) : (s.arraysAt mem).Holds bo offset data ↔
      ∀ i (hi : i < data.length), mem ((s.heap.buffer bo).va + (offset + i)) = data[i] := by
  have here : s.arraysAt mem bo = some ((List.range (s.heap.totalSize bo)).map fun o =>
      mem ((s.heap.buffer bo).va + o)) := if_pos held
  have part := @slice_map_range _ offset data.length
    (fun o => mem ((s.heap.buffer bo).va + o)) _ inside
  constructor
  · rintro ⟨a, found, -, same⟩ i hi
    obtain rfl := Option.some.inj (here.symm.trans found)
    rw [part] at same
    simpa using List.getElem_of_eq same (show i < _ by simpa using hi)
  · intro bytes
    refine ⟨_, here, by simpa using inside, ?_⟩
    rw [part]
    exact List.ext_getElem (by simp) fun i _ hi => by simpa using bytes i hi

/-! ## Launches -/

section Launches

variable {p : Computer κ κ'} {ctx : Addr} {s s' : Machine κ κ'} {rest : List Addr}

/-- The arrays are what the hardware sees. -/
theorem Machine.Inv.arrays_eq (inv : s.Inv p.toPlatform ctx rest) :
    s.arrays = s.arraysAt (s.mem p.toPlatform) := by
  funext bo
  unfold Machine.arrays Machine.arraysAt
  by_cases held : bo ∈ s.client.held
  · rw [if_pos held, if_pos held, inv.contents_eq held]
  · rw [if_neg held, if_neg held]

/-- Kernels that ran one after the other did what is known of them, one after
the other. -/
theorem Launched.relates {argss : List LaunchArgs} {mem mem' : Nat → Byte}
    {rs : List (Arrays BufPtr Byte → Arrays BufPtr Byte → Prop)}
    (launched : Launched p.kernel s.heap argss mem mem')
    (contracts : List.Forall₂ (s.Contract p.kernel) argss rs) :
    (TSys.relating _).Run (s.arraysAt mem) rs (s.arraysAt mem') := by
  induction launched generalizing rs with
  | nil =>
      cases contracts with
      | nil => exact .nil
  | cons started ran _ ih =>
      cases contracts with
      | cons contract contracts => exact .cons (contract _ _ _ started ran) (ih contracts)

/-- Launches that are asked for return, and so does the wait behind them. Then
the kernels have run, and nothing of the descriptor is in the rings. -/
theorem Machine.Inv.launched (inv : s.Inv p.toPlatform ctx rest) {argss : List LaunchArgs}
    {bo : BufPtr} (asked : s.LaunchesAsked argss bo) (stale : Nat → Nat → CsRelocGem) :
    ∃ w w', argss.foldlM (fun w args =>
        launch p.patientDrm s.heap ctx args w) s.cs = .ok w ∧
      waitBuffer stale p.patientDrm s.heap ctx bo w = .ok w' ∧
      Launched p.kernel s.heap argss (s.mem p.toPlatform) (p.rings w'.kernel).state ∧
      ∀ job ∈ (p.rings w'.kernel).pending, job.fd ≠ p.fd := by
  have legal := inv.placed.legal
  have waitable : ∀ b ∈ s.client.held, s.heap.Waitable ctx b :=
    fun b held => legal.waitable held (inv.placed.own b held)
  have ready : ∀ args ∈ argss, LaunchReady s.heap ctx args := fun args member =>
    ⟨asked.checked args member, waitable _ (asked.code args member),
      fun b inUsed => waitable b (asked.used args member b inUsed)⟩
  have patient := p.inOrder.patient.1
  obtain ⟨w, css, launched, shapes, -, leads⟩ :=
    launches_lead patient p.grants.cs argss ready s.cs
  obtain ⟨w', flush, wait, -, flushRing, ib, -, leads', gone, -⟩ :=
    waitBuffer_leads legal asked.held (waitable bo asked.held) patient p.grants.cs
      (p.grants.patient_waitIdle p.inOrder) stale w
  obtain ⟨es, run, own⟩ := leads.trans leads'
  rw [inv.descriptor] at own gone
  have quiet : Undisturbed p.effect (p.rings s.cs.kernel).pending p.fd radeonCsRingCompute
      Set.univ :=
    ⟨fun job mem mem' other does a _ => by rw [p.isolated job mem mem' other does],
      fun job pending _ mem mem' does a _ => by
        rw [p.isolated job mem mem' (inv.idle job pending) does]⟩
  have ran := launchesRun_of_run run p.runs quiet shapes ready flushRing ib own gone
  refine ⟨w, w', launched, wait, ran.direct fun job pending mine => ?_, ?_⟩
  · exact inv.idle job pending mine.1
  · exact idle_of_own run own (launches_onRing shapes flushRing p.fd) ran.done inv.idle

/-- Launches that are asked for can be a step. -/
theorem Machine.Inv.exists_launches (inv : s.Inv p.toPlatform ctx rest)
    (apart : (s.kernel p.toPlatform).Apart) {argss : List LaunchArgs} {bo : BufPtr}
    (asked : s.LaunchesAsked argss bo)
    {rs : List (Arrays BufPtr Byte → Arrays BufPtr Byte → Prop)}
    (contracts : List.Forall₂ (s.Contract p.kernel) argss rs) :
    ∃ s', s'.client = s.client ∧ p.Step ctx s (.compute rs) s' := by
  obtain ⟨w, w', launched, wait, -⟩ := inv.launched asked fun _ _ => ⟨0, 0, 0, 0⟩
  obtain ⟨vram, seen⟩ := apart.exists_vram (p.rings w'.kernel).state
  exact ⟨⟨s.client, vram, w'⟩, rfl, .launches asked contracts launched wait rfl seen⟩

/-- Every call and every launch keeps the invariant and is what it is labelled with. -/
theorem Computer.step_keeps (inv : s.Inv p.toPlatform ctx rest) {op : ComputeOp BufPtr Byte}
    (step : p.Step ctx s op s') :
    (∃ rest', s'.Inv p.toPlatform ctx rest') ∧ Arrays.ComputeStep s.arrays op s'.arrays := by
  cases step with
  | call step =>
      obtain ⟨kept, does⟩ := inv.step step
      exact ⟨kept, .array does⟩
  | @launches _ argss bo rs stale w asked contracts run wait client seen =>
      obtain ⟨w₁, w', run', wait', launched, idle⟩ := inv.launched asked stale
      obtain rfl : w = w₁ := Except.ok.inj (run.symm.trans run')
      obtain rfl : s'.cs = w' := Except.ok.inj (wait.symm.trans wait')
      have inv' := inv.still client idle seen
      have same : s.arraysAt = s'.arraysAt := by
        unfold Machine.arraysAt Machine.heap
        rw [client]
      rw [inv.arrays_eq, inv'.arrays_eq, ← same]
      exact ⟨⟨rest, inv'⟩, .compute (launched.relates contracts)⟩

end Launches

/-- Calls and launches refine the memory that computes. -/
theorem computer_refines (p : Computer κ κ') (ctx : Addr) :
    (computerSystem p ctx).Refines (computingSystem BufPtr Byte)
      (fun s => ∃ rest, s.Inv p.toPlatform ctx rest) Machine.arrays where
  inv :=
    { init := (machine_refines p.toPlatform ctx).inv.init
      step := fun s op s' inv step => by
        obtain ⟨rest, inv⟩ := inv
        exact (Computer.step_keeps inv step).1 }
  init := (machine_refines p.toPlatform ctx).init
  step s op s' inv _ step := by
    obtain ⟨rest, inv⟩ := inv
    exact (Computer.step_keeps inv step).2

/-- Runs of calls are runs. -/
theorem computerSystem_calls {p : Computer κ κ'} {ctx : Addr} {s s' : Machine κ κ'}
    {ops : List (ArrayOp BufPtr Byte)} (run : (machineSystem p.toPlatform ctx).Run s ops s') :
    (computerSystem p ctx).Run s (ops.map .array) s' := by
  induction run with
  | nil => exact .nil
  | cons step _ ih => exact .cons (.call step) ih

/-! ## Hardware that copies and computes -/

/-- No stream of packets is both copies and register writes. -/
theorem moves_of_events {job : Job} {moves : List Move} {events : List CpEvent}
    (onRing : job.ring = some radeonCsRingCompute) (decoded : job.moves = some moves)
    (executed : cpEvents job.cs.ib = some events) : moves = [] ∧ events = [] := by
  rw [Job.moves, if_pos onRing] at decoded
  obtain ⟨packets, decoded, moved⟩ := Option.bind_eq_some_iff.mp decoded
  obtain ⟨ps, parsed, copies⟩ := Option.bind_eq_some_iff.mp decoded
  obtain ⟨ps', parsed', writes⟩ := Option.bind_eq_some_iff.mp executed
  obtain rfl : ps = ps' := Option.some.inj (parsed.symm.trans parsed')
  cases ps with
  | nil =>
      obtain rfl : packets = [] := by simpa using copies.symm
      exact ⟨by simpa using moved.symm, by simpa using writes.symm⟩
  | cons first ps =>
      -- the opcode of the first packet would have to be two at once
      exfalso
      rw [List.mapM_cons] at copies writes
      obtain ⟨copy, copied, -⟩ := Option.bind_eq_some_iff.mp copies
      obtain ⟨ess, some, -⟩ := Option.map_eq_some_iff.mp writes
      obtain ⟨es, written, -⟩ := Option.bind_eq_some_iff.mp some
      have opcode : first.opcode = pkt3CpDma := by
        by_contra other
        rw [decodeCpDma, if_neg other] at copied
        exact absurd copied (by simp)
      rw [Packet.events, opcode, if_neg (by decide), if_neg (by decide)] at written
      exact absurd written (by simp)

/-- In the memory of descriptor 3, its copies and its streams. -/
def deviceExec (kernel : (Nat → Dword) → (Nat → Byte) → (Nat → Byte)) (job : Job)
    (mem : Nat → Byte) : Nat → Byte :=
  if job.fd = 3 then
    (job.moves.map fun moves => execMoves moves mem).getD (streamExec kernel job mem)
  else mem

theorem makesCopies_deviceExec (kernel : (Nat → Dword) → (Nat → Byte) → (Nat → Byte)) :
    MakesCopies (fun (job : Job) (mem mem' : Nat → Byte) => mem' = deviceExec kernel job mem)
      3 := by
  intro job moves mem mem' own decoded does
  rw [does, deviceExec, if_pos own, decoded]
  rfl

theorem runsStreams_deviceExec (kernel : (Nat → Dword) → (Nat → Byte) → (Nat → Byte)) :
    RunsStreams (fun (job : Job) (mem mem' : Nat → Byte) => mem' = deviceExec kernel job mem) 3
      fun regs mem mem' => mem' = kernel regs mem := by
  intro job events mem mem' mine executed does
  cases decoded : job.moves with
  | none =>
      rw [deviceExec, if_pos mine.1, decoded] at does
      exact runsStreams_streamExec kernel job events mem mem' mine executed does
  | some moves =>
      obtain ⟨rfl, rfl⟩ := moves_of_events mine.2 decoded executed
      rw [deviceExec, if_pos mine.1, decoded] at does
      exact ⟨fun _ => 0, does⟩

/-- A kernel that adds the first byte of its program to the first three bytes of
the larger of two buffers. -/
def addByte (regs : Nat → Dword) (mem : Nat → Byte) : Nat → Byte := fun a =>
  if 4096 ≤ a ∧ a < 4099 then mem a + mem (256 * (regs Reg.computePgmLo.toNat).toNat) else mem a

/-- The platform with room for ten handles, with that kernel. -/
def lazyComputer : Computer SoundKernel (Rings Job (Nat → Byte)) where
  drm := limitedDrm .above 10
  view _ k := k.1
  csDrm := lazyDrm (deviceExec addByte)
  rings := id
  effect job mem mem' := mem' = deviceExec addByte job mem
  fd := 3
  patience := 0
  honest := lazyPlatform.honest
  inOrder := lazyDrm_inOrder (deviceExec addByte)
  grants := lazyDrm_grants (deviceExec addByte)
  makes := makesCopies_deviceExec addByte
  isolated job mem mem' other does := by rw [does, deviceExec, if_neg other]
  kernel regs mem mem' := mem' = addByte regs mem
  runs := runsStreams_deviceExec addByte

/-- The one byte of the program is added to three bytes. -/
def addsFive (a a' : Arrays BufPtr Byte) : Prop :=
  a.Holds ⟨2, 0⟩ 0 [5] ∧ a.Holds ⟨1, 0⟩ 0 [1, 2, 3] → a'.Holds ⟨1, 0⟩ 0 [6, 7, 8]

/-- A launch of the kernel on two such buffers keeps it. -/
theorem contract_addsFive {s : Machine κ κ'} (larger : ⟨1, 0⟩ ∈ s.client.held)
    (smaller : ⟨2, 0⟩ ∈ s.client.held) (size₁ : s.heap.totalSize ⟨1, 0⟩ = 104857600)
    (size₂ : s.heap.totalSize ⟨2, 0⟩ = 5000) (va₁ : (s.heap.buffer ⟨1, 0⟩).va = 4096)
    (va₂ : (s.heap.buffer ⟨2, 0⟩).va = 104861696) (groups : SizeT) :
    s.Contract (fun regs mem mem' => mem' = addByte regs mem) (LaunchArgs.onBuffer groups)
      addsFive := by
  rintro regs mem mem' started rfl ⟨program, input⟩
  rw [Machine.arraysAt_holds smaller (by rw [size₂]; decide)] at program
  rw [Machine.arraysAt_holds larger (by rw [size₁]; decide)] at input ⊢
  have code : (LaunchArgs.onBuffer groups).code = ⟨2, 0⟩ := rfl
  have pgm : regs Reg.computePgmLo.toNat = 409616 := by
    rw [started.dispatched.pgm.1, code, va₂]
    rfl
  have five := program 0 (by decide)
  rw [va₂] at five
  intro i hi
  have here := input i hi
  rw [va₁, Nat.zero_add] at here ⊢
  have small : i < 3 := hi
  show (if 4096 ≤ 4096 + i ∧ 4096 + i < 4099 then
    mem (4096 + i) + mem (256 * (regs Reg.computePgmLo.toNat).toNat) else mem (4096 + i)) = _
  rw [if_pos ⟨by omega, by omega⟩, here, pgm]
  show _ + mem 104861696 = _
  rw [five]
  match i, small with
  | 0, _ => rfl
  | 1, _ => rfl
  | 2, _ => rfl

/-- A program of one byte, an input of three, one launch, and the result. -/
theorem lazyComputer_run : ∃ s s' back, (computerSystem lazyComputer 0).init s ∧
    (computerSystem lazyComputer 0).Run s
      ([.array (.create ⟨1, 0⟩ 104857600), .array (.create ⟨2, 0⟩ 5000)] ++
        (.array (.write ⟨2, 0⟩ 0 [5]) :: [] ++ .array (.write ⟨1, 0⟩ 0 [1, 2, 3]) :: [] ++
          .compute [addsFive] :: [] ++ [.array (.read ⟨1, 0⟩ 0 back)])) s' ∧ back.length = 3 := by
  obtain ⟨s, s₂, init, opened, held, apart, size₁, size₂, va₁, va₂⟩ :=
    opened_twoBuffers lazyComputer.toPlatform rfl rfl rfl rfl
  have opened : (computerSystem lazyComputer 0).Run s
      [.array (.create ⟨1, 0⟩ 104857600), .array (.create ⟨2, 0⟩ 5000)] s₂ :=
    computerSystem_calls opened
  have invariant := (computer_refines lazyComputer 0).inv
  obtain ⟨rest, inv₂⟩ := invariant.invariant (opened.reachable (.init init))
  have larger : ⟨1, 0⟩ ∈ s₂.client.held := by simp [held]
  have smaller : ⟨2, 0⟩ ∈ s₂.client.held := by simp [held]
  have programAsked : s₂.TransferAsked ⟨2, 0⟩ 0 ([5] : List Byte).length :=
    ⟨smaller, by decide, by rw [size₂]; decide, .inl rfl⟩
  -- the pool stays as it is from here on
  obtain ⟨⟨_, vram₃, cs₃⟩, rfl, program⟩ := inv₂.exists_write rfl apart programAsked
  obtain ⟨rest₃, inv₃⟩ := invariant.step _ _ _ ⟨rest, inv₂⟩ (.call program)
  have inputAsked : (Machine.mk s₂.client vram₃ cs₃).TransferAsked ⟨1, 0⟩ 0
      ([1, 2, 3] : List Byte).length :=
    ⟨larger, by decide, by show 0 + 3 ≤ s₂.heap.totalSize _; omega, .inl rfl⟩
  obtain ⟨⟨_, vram₄, cs₄⟩, rfl, input⟩ := inv₃.exists_write rfl apart inputAsked
  obtain ⟨rest₄, inv₄⟩ := invariant.step _ _ _ ⟨rest₃, inv₃⟩ (.call input)
  have launchAsked : (Machine.mk s₂.client vram₄ cs₄).LaunchesAsked [LaunchArgs.onBuffer 10]
      ⟨1, 0⟩ :=
    ⟨by simp [LaunchArgs.checked_onBuffer], List.forall_mem_singleton.mpr smaller,
      List.forall_mem_singleton.mpr (List.forall_mem_singleton.mpr larger), larger⟩
  obtain ⟨⟨_, vram₅, cs₅⟩, rfl, compute⟩ := inv₄.exists_launches apart launchAsked
    (.cons (contract_addsFive larger smaller size₁ size₂ va₁ va₂ 10) .nil)
  obtain ⟨rest₅, inv₅⟩ := invariant.step _ _ _ ⟨rest₄, inv₄⟩ compute
  have readAsked : (Machine.mk s₂.client vram₅ cs₅).TransferAsked ⟨1, 0⟩ 0 3 :=
    ⟨larger, by decide, by show 0 + 3 ≤ s₂.heap.totalSize _; omega, .inl rfl⟩
  obtain ⟨back, len, read⟩ := inv₅.exists_read readAsked
  exact ⟨s, _, back, init, opened.append
    (.cons (.call program) (.cons (.call input) (.cons compute (.single (.call read))))), len⟩

/-! ## What the caller sees -/

/-- **Launches compute on arrays.** Every run of calls and launches, on any
platform that keeps its promises, is a run of the memory that computes, and in
every state it reaches neither a call nor a launch that may be asked for fails. -/
theorem computer_arrays (p : Computer κ κ') (ctx : Addr) {s s' : Machine κ κ'}
    {ops : List (ComputeOp BufPtr Byte)} (init : (computerSystem p ctx).init s)
    (run : (computerSystem p ctx).Run s ops s') :
    (computingSystem BufPtr Byte).Run (fun _ => none) ops s'.arrays ∧
      s'.Answers p.toPlatform ctx ∧ s'.Idle p.toPlatform ∧
      ∀ argss bo stale, s'.LaunchesAsked argss bo → ∃ w w', argss.foldlM (fun w args =>
          launch p.patientDrm s'.heap ctx args w) s'.cs = .ok w ∧
        waitBuffer stale p.patientDrm s'.heap ctx bo w = .ok w' := by
  have refines := computer_refines p ctx
  have spec := refines.run run (refines.inv.init s init)
  rw [(Machine.Inv.start init).2] at spec
  obtain ⟨rest, inv⟩ := refines.inv.invariant (run.reachable (.init init))
  refine ⟨spec, inv.answers, inv.idle, fun argss bo stale asked => ?_⟩
  obtain ⟨w, w', launched, wait, -⟩ := inv.launched asked stale
  exact ⟨w, w', launched, wait⟩

/-- The five calls and the launch of the run. -/
theorem computer_arrays_oneLaunch : ∃ s s' ops, (computerSystem lazyComputer 0).init s ∧
    (computerSystem lazyComputer 0).Run s ops s' ∧ ops.length = 6 ∧
      (computingSystem BufPtr Byte).Run (fun _ => none) ops s'.arrays := by
  obtain ⟨s, s', back, init, run, -⟩ := lazyComputer_run
  exact ⟨s, s', _, init, run, rfl, (computer_arrays lazyComputer 0 init run).1⟩

/-- **What a program computes is read back.** A program and its input are
written to buffers, launches that turn the input into the output are waited for,
and the output is read: it is there, whatever is allocated, released, written,
copied and computed before and in between, as long as that spares the parts. -/
theorem computer_result (p : Computer κ κ') (ctx : Addr) {s s' : Machine κ κ'}
    {code src dst : BufPtr} {codeOffset srcOffset dstOffset : Nat}
    {program input output back : List Byte}
    {earlier before between after : List (ComputeOp BufPtr Byte)}
    {rs : List (Arrays BufPtr Byte → Arrays BufPtr Byte → Prop)}
    (init : (computerSystem p ctx).init s)
    (run : (computerSystem p ctx).Run s (earlier ++
      (.array (.write code codeOffset program) :: before ++
        .array (.write src srcOffset input) :: between ++ .compute rs :: after ++
        [.array (.read dst dstOffset back)])) s')
    (len : back.length = output.length)
    (early : ∀ op ∈ before, op.Spares code codeOffset program.length)
    (late : ∀ op ∈ .array (.write src srcOffset input) :: between,
      op.Spares code codeOffset program.length)
    (still : ∀ op ∈ between, op.Spares src srcOffset input.length)
    (computes : (TSys.relating _).asserting.Run
      (fun a => a.Holds code codeOffset program ∧ a.Holds src srcOffset input) rs
      fun a => a.Holds dst dstOffset output)
    (last : ∀ op ∈ after, op.Spares dst dstOffset output.length) : back = output := by
  have refines := computer_refines p ctx
  obtain ⟨s₁, ahead, main⟩ := run.split
  have inv := refines.inv.invariant (ahead.reachable (.init init))
  exact computingSystem_result (refines.run main inv) len early late still computes last

/-- So five has been added to each byte. -/
theorem computer_result_addsFive : ∃ s s' back, (computerSystem lazyComputer 0).init s ∧
    (computerSystem lazyComputer 0).Run s
      ([.array (.create ⟨1, 0⟩ 104857600), .array (.create ⟨2, 0⟩ 5000)] ++
        (.array (.write ⟨2, 0⟩ 0 [5]) :: [] ++ .array (.write ⟨1, 0⟩ 0 [1, 2, 3]) :: [] ++
          .compute [addsFive] :: [] ++ [.array (.read ⟨1, 0⟩ 0 back)])) s' ∧
      back = [6, 7, 8] := by
  obtain ⟨s, s', back, init, run, len⟩ := lazyComputer_run
  have same : back = [6, 7, 8] := computer_result lazyComputer 0 init run len (by simp)
    (by simp [ComputeOp.Spares, ArrayOp.Spares]) (by simp)
    (.single fun a a' adds => adds) (by simp)
  exact ⟨s, s', back, init, run, same⟩

end RadeonsiCompute
