import RadeonsiCompute.Lib.Refinement
import Mathlib.Data.List.Basic
import Mathlib.Logic.Function.Basic
import Mathlib.Tactic.Common

/-!
# Named arrays

The specification of a memory that hands out arrays by name: each is a list of
cells of its own, written, read and copied in part. What a part holds, it holds
until the array is dropped or an operation writes into the part.
-/

namespace RadeonsiCompute.Lib

variable {ν β : Type}

/-! ## Parts of a list -/

/-- The list with `data` in place of what was there from `offset` on. -/
def splice (a : List β) (offset : Nat) (data : List β) : List β :=
  a.take offset ++ data ++ a.drop (offset + data.length)

/-- The `len` cells from `offset` on. -/
def slice (a : List β) (offset len : Nat) : List β := (a.drop offset).take len

section Parts

variable {a data : List β} {offset pos len : Nat}

theorem getElem?_slice (i : Nat) :
    (slice a offset len)[i]? = if i < len then a[offset + i]? else none := by
  rw [slice, List.getElem?_take]
  simp only [List.getElem?_drop]

theorem getElem?_splice (fits : offset + data.length ≤ a.length) (i : Nat) :
    (splice a offset data)[i]? =
      if offset ≤ i ∧ i < offset + data.length then data[i - offset]? else a[i]? := by
  have front : (a.take offset).length = offset := by
    rw [List.length_take]
    omega
  rw [splice, List.append_assoc]
  by_cases before : i < offset
  · rw [List.getElem?_append_left (by omega), List.getElem?_take, if_pos before, if_neg (by omega)]
  · rw [List.getElem?_append_right (by omega), front]
    by_cases inside : i < offset + data.length
    · rw [List.getElem?_append_left (by omega), if_pos (by omega)]
    · rw [List.getElem?_append_right (by omega), List.getElem?_drop, if_neg (by omega)]
      congr 1
      omega

@[simp] theorem length_splice (fits : offset + data.length ≤ a.length) :
    (splice a offset data).length = a.length := by
  simp only [splice, List.length_append, List.length_take, List.length_drop]
  omega

theorem length_slice (fits : offset + len ≤ a.length) : (slice a offset len).length = len := by
  simp only [slice, List.length_take, List.length_drop]
  omega

/-- What was put in is there. -/
theorem slice_splice (fits : offset + data.length ≤ a.length) :
    slice (splice a offset data) offset data.length = data := by
  refine List.ext_getElem? fun i => ?_
  rw [getElem?_slice]
  by_cases inside : i < data.length
  · rw [if_pos inside, getElem?_splice fits, if_pos (by omega), Nat.add_sub_cancel_left]
  · rw [if_neg inside, List.getElem?_eq_none (by omega)]

/-- The rest is as it was. -/
theorem slice_splice_apart (fits : offset + data.length ≤ a.length)
    (apart : offset + data.length ≤ pos ∨ pos + len ≤ offset) :
    slice (splice a offset data) pos len = slice a pos len := by
  refine List.ext_getElem? fun i => ?_
  rw [getElem?_slice, getElem?_slice]
  by_cases inside : i < len
  · rw [if_pos inside, if_pos inside, getElem?_splice fits, if_neg (by omega)]
  · rw [if_neg inside, if_neg inside]

/-- The cells of a function, some of them replaced. -/
theorem splice_map_range {f g : Nat → β} {n : Nat} (fits : offset + data.length ≤ n)
    (new : ∀ i (hi : i < data.length), g (offset + i) = data[i])
    (old : ∀ i < n, ¬ (offset ≤ i ∧ i < offset + data.length) → g i = f i) :
    splice ((List.range n).map f) offset data = (List.range n).map g := by
  refine List.ext_getElem? fun i => ?_
  rw [getElem?_splice (by simpa using fits)]
  by_cases inside : offset ≤ i ∧ i < offset + data.length
  · have here := new (i - offset) (by omega)
    rw [show offset + (i - offset) = i by omega] at here
    rw [if_pos inside, List.getElem?_eq_getElem (show i - offset < data.length by omega)]
    simp [here, show i < n by omega]
  · rw [if_neg inside]
    by_cases listed : i < n
    · simp [listed, old i listed inside]
    · simp [listed]

/-- The cells of a part of a function. -/
theorem slice_map_range {f : Nat → β} {n : Nat} (fits : offset + len ≤ n) :
    slice ((List.range n).map f) offset len =
      (List.range len).map fun i => f (offset + i) := by
  refine List.ext_getElem? fun i => ?_
  rw [getElem?_slice]
  by_cases inside : i < len
  · simp [inside, show offset + i < n by omega]
  · simp [inside]

end Parts

/-! ## The memory -/

/-- The arrays there are. -/
abbrev Arrays (ν β : Type) := ν → Option (List β)

/-- What is asked of the memory, and what it answers. -/
inductive ArrayOp (ν β : Type)
  | create (name : ν) (size : Nat)
  | refuse
  | drop (name : ν)
  | write (name : ν) (offset : Nat) (data : List β)
  | read (name : ν) (offset : Nat) (data : List β)
  | copy (dst : ν) (dstOffset : Nat) (src : ν) (srcOffset size : Nat)

variable [DecidableEq ν]

/-- A new array holds anything. Nothing is said about parts that are not in
their array, or copies onto themselves. -/
inductive Arrays.Step : Arrays ν β → ArrayOp ν β → Arrays ν β → Prop
  | create {s name a} : s name = none →
      Step s (.create name a.length) (Function.update s name (some a))
  | refuse {s} : Step s .refuse s
  | drop {s name a} : s name = some a → Step s (.drop name) (Function.update s name none)
  | write {s name a offset data} : s name = some a → offset + data.length ≤ a.length →
      Step s (.write name offset data) (Function.update s name (some (splice a offset data)))
  | read {s name a offset len} : s name = some a → offset + len ≤ a.length →
      Step s (.read name offset (slice a offset len)) s
  | copy {s dst a dstOffset src b srcOffset size} : s dst = some a → s src = some b →
      dstOffset + size ≤ a.length → srcOffset + size ≤ b.length →
      (dst = src → dstOffset + size ≤ srcOffset ∨ srcOffset + size ≤ dstOffset) →
      Step s (.copy dst dstOffset src srcOffset size)
        (Function.update s dst (some (splice a dstOffset (slice b srcOffset size))))

/-- The memory, empty at first. -/
def arraySystem (ν β : Type) [DecidableEq ν] : TSys (Arrays ν β) (ArrayOp ν β) where
  init s := s = fun _ => none
  step := Arrays.Step

namespace Arrays

/-- A part of an array that holds `data`. -/
def Holds (s : Arrays ν β) (name : ν) (offset : Nat) (data : List β) : Prop :=
  ∃ a, s name = some a ∧ offset + data.length ≤ a.length ∧ slice a offset data.length = data

end Arrays

/-- The operation neither drops the array nor writes into the part. -/
def ArrayOp.Spares (name : ν) (offset len : Nat) : ArrayOp ν β → Prop
  | .drop other => other ≠ name
  | .write other pos data => other ≠ name ∨ pos + data.length ≤ offset ∨ offset + len ≤ pos
  | .copy other pos _ _ size => other ≠ name ∨ pos + size ≤ offset ∨ offset + len ≤ pos
  | _ => True

namespace Arrays

variable {s s' : Arrays ν β} {name : ν} {offset : Nat} {data : List β}

/-- An array put in the place of another holds what it held outside the part
that changed. -/
theorem Holds.splice {other : ν} {a new : List β} {pos : Nat} (holds : s.Holds name offset data)
    (here : s other = some a) (fits : pos + new.length ≤ a.length)
    (spared : other ≠ name ∨ pos + new.length ≤ offset ∨ offset + data.length ≤ pos) :
    Holds (Function.update s other (some (splice a pos new))) name offset data := by
  obtain ⟨b, found, inside, same⟩ := holds
  by_cases own : name = other
  · subst own
    obtain rfl : a = b := Option.some.inj (here.symm.trans found)
    refine ⟨_, Function.update_self .., ?_, ?_⟩
    · rw [length_splice fits]
      exact inside
    · rw [slice_splice_apart fits (spared.resolve_left fun differ => differ rfl)]
      exact same
  · exact ⟨b, by rw [Function.update_of_ne own]; exact found, inside, same⟩

/-- **A part holds what it holds** until something writes into it. -/
theorem Step.spares {op : ArrayOp ν β} (step : Step s op s')
    (spared : op.Spares name offset data.length) (holds : s.Holds name offset data) :
    s'.Holds name offset data := by
  cases step with
  | create free =>
      obtain ⟨a, found, rest⟩ := holds
      refine ⟨a, ?_, rest⟩
      rw [Function.update_of_ne]
      · exact found
      · rintro rfl
        exact absurd (free.symm.trans found) (by simp)
  | refuse => exact holds
  | drop found =>
      obtain ⟨a, here, rest⟩ := holds
      refine ⟨a, ?_, rest⟩
      rw [Function.update_of_ne (Ne.symm spared)]
      exact here
  | write found fits => exact holds.splice found fits spared
  | read => exact holds
  | @copy dst a dstOffset src b srcOffset size here there fits inside _ =>
      have len := length_slice inside
      refine holds.splice here (by rw [len]; exact fits) ?_
      rw [len]
      exact spared

/-- What is written is held. -/
theorem Step.write_holds (step : Step s (.write name offset data) s') :
    s'.Holds name offset data := by
  cases step with
  | write found fits =>
      refine ⟨_, Function.update_self .., ?_, slice_splice fits⟩
      rw [length_splice fits]
      exact fits

/-- What the source of a copy holds, the destination holds afterwards. -/
theorem Step.copy_holds {dst : ν} {dstOffset : Nat}
    (step : Step s (.copy dst dstOffset name offset data.length) s')
    (holds : s.Holds name offset data) : s'.Holds dst dstOffset data := by
  cases step with
  | @copy _ a _ _ b _ _ here there fits inside _ =>
      obtain ⟨b', found, -, same⟩ := holds
      obtain rfl : b = b' := Option.some.inj (there.symm.trans found)
      rw [same]
      refine ⟨_, Function.update_self .., ?_, slice_splice fits⟩
      rw [length_splice fits]
      exact fits

/-- What is held is read. -/
theorem Step.read_eq {back : List β} (step : Step s (.read name offset back) s')
    (len : back.length = data.length) (holds : s.Holds name offset data) : back = data := by
  obtain ⟨a, found, inside, same⟩ := holds
  generalize shape : ArrayOp.read name offset back = op at step
  cases step with
  | read there fits =>
      obtain ⟨rfl, rfl, rfl⟩ := ArrayOp.read.inj shape
      obtain rfl : a = _ := Option.some.inj (found.symm.trans there)
      rw [length_slice fits] at len
      rw [len]
      exact same
  | _ => exact absurd shape (by simp)

end Arrays

/-- **What is written comes back through a copy**, whatever is done to the rest
of the memory in between. -/
theorem arraySystem_readBack {s s' : Arrays ν β} {name dst : ν} {offset dstOffset : Nat}
    {data back : List β} {before between : List (ArrayOp ν β)}
    (run : (arraySystem ν β).Run s (.write name offset data :: before ++
      .copy dst dstOffset name offset data.length :: between ++ [.read dst dstOffset back]) s')
    (len : back.length = data.length)
    (first : ∀ op ∈ before, op.Spares name offset data.length)
    (second : ∀ op ∈ between, op.Spares dst dstOffset data.length) : back = data := by
  obtain ⟨s₄, run, last⟩ := run.split
  obtain ⟨s₂, run, copied⟩ := run.split
  cases run with
  | cons write rest =>
      have held := rest.keeps (fun op member _ _ step => Arrays.Step.spares step (first op member))
        (Arrays.Step.write_holds write)
      cases copied with
      | cons copy rest =>
          have moved := rest.keeps
            (fun op member _ _ step => Arrays.Step.spares step (second op member))
            (Arrays.Step.copy_holds copy held)
          cases last with
          | cons read _ => exact Arrays.Step.read_eq read len moved

/-! ## A memory that computes -/

/-- An operation, or computations one after the other, each known by what it
makes of the arrays. -/
inductive ComputeOp (ν β : Type)
  | array (op : ArrayOp ν β)
  | compute (rs : List (Arrays ν β → Arrays ν β → Prop))

inductive Arrays.ComputeStep : Arrays ν β → ComputeOp ν β → Arrays ν β → Prop
  | array {s op s'} : Step s op s' → ComputeStep s (.array op) s'
  | compute {s rs s'} : (TSys.relating _).Run s rs s' → ComputeStep s (.compute rs) s'

/-- The memory with computations, empty at first. -/
def computingSystem (ν β : Type) [DecidableEq ν] : TSys (Arrays ν β) (ComputeOp ν β) where
  init s := s = fun _ => none
  step := Arrays.ComputeStep

/-- The operation leaves `len` cells of the array from `offset` on as they are. -/
def ComputeOp.Spares (name : ν) (offset len : Nat) : ComputeOp ν β → Prop
  | .array op => op.Spares name offset len
  | .compute rs => ∀ r ∈ rs, ∀ data : List β, data.length = len →
      (TSys.relating (Arrays ν β)).asserting.step (fun s => s.Holds name offset data) r
        fun s => s.Holds name offset data

section Rules

variable {name : ν} {offset : Nat} {data : List β} {P Q : Arrays ν β → Prop}

/-- The rule for what operations have nothing to do with. -/
theorem computing_spares {ops : List (ComputeOp ν β)}
    (spared : ∀ op ∈ ops, op.Spares name offset data.length) :
    (computingSystem ν β).asserting.Run (fun s => s.Holds name offset data) ops
      fun s => s.Holds name offset data := by
  refine TSys.asserting_keeps fun op member s s' step holds => ?_
  have spared := spared op member
  cases step with
  | array step => exact Arrays.Step.spares step spared holds
  | compute run => exact run.keeps (fun r inRs => spared r inRs data rfl) holds

/-- The rule for a write. -/
theorem computing_write :
    (computingSystem ν β).asserting.step (fun _ => True) (.array (.write name offset data))
      fun s => s.Holds name offset data := by
  intro s s' step _
  cases step with
  | array step => exact Arrays.Step.write_holds step

/-- The rule for computations, from the rules for each of them. -/
theorem computing_compute {rs : List (Arrays ν β → Arrays ν β → Prop)}
    (derivation : (TSys.relating _).asserting.Run P rs Q) :
    (computingSystem ν β).asserting.step P (.compute rs) Q := by
  intro s s' step holds
  cases step with
  | compute run => exact derivation.asserts run holds

end Rules

/-- **What is computed is read.** A program and its input are written, computations that
make the output of them run, and the output is read, whatever else happens to the rest of the
memory in between. -/
theorem computingSystem_result {s s' : Arrays ν β} {code src dst : ν}
    {codeOffset srcOffset dstOffset : Nat} {program input output back : List β}
    {before between after : List (ComputeOp ν β)} {rs : List (Arrays ν β → Arrays ν β → Prop)}
    (run : (computingSystem ν β).Run s (.array (.write code codeOffset program) :: before ++
      .array (.write src srcOffset input) :: between ++ .compute rs :: after ++
        [.array (.read dst dstOffset back)]) s')
    (len : back.length = output.length)
    (early : ∀ op ∈ before, op.Spares code codeOffset program.length)
    (late : ∀ op ∈ .array (.write src srcOffset input) :: between,
      op.Spares code codeOffset program.length)
    (still : ∀ op ∈ between, op.Spares src srcOffset input.length)
    (computes : (TSys.relating _).asserting.Run
      (fun s => s.Holds code codeOffset program ∧ s.Holds src srcOffset input) rs
      fun s => s.Holds dst dstOffset output)
    (last : ∀ op ∈ after, op.Spares dst dstOffset output.length) : back = output := by
  obtain ⟨s₃, run, reading⟩ := run.split
  obtain ⟨s₂, run, computing⟩ := run.split
  obtain ⟨s₁, programming, feeding⟩ := run.split
  -- the program is there, then the program and the input, then the output
  have programmed : s₁.Holds code codeOffset program :=
    TSys.Run.asserts (.cons computing_write (computing_spares early)) programming trivial
  have fed : s₂.Holds code codeOffset program ∧ s₂.Holds src srcOffset input :=
    TSys.Run.asserts (TSys.asserting_and (computing_spares late)
      (.cons computing_write (computing_spares still))) feeding ⟨programmed, trivial⟩
  have computed : s₃.Holds dst dstOffset output :=
    TSys.Run.asserts (.cons (computing_compute computes) (computing_spares last)) computing fed
  cases reading with
  | cons read _ =>
      cases read with
      | array read => exact Arrays.Step.read_eq read len computed

end RadeonsiCompute.Lib
