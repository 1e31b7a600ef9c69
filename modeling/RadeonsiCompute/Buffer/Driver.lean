import RadeonsiCompute.Buffer.Kernel

/-!
# Drivers that may refuse any request

What the results about failing calls ask of the driver, whatever its state is
and whichever requests it refuses: a refused request changes nothing, a granted
one does what it says, and no range is mapped past 2^64. `limitedDrm` is such a
driver, with a bound on the number of open handles.
-/

namespace RadeonsiCompute

open Lib

variable {κ : Type}

/-- The range a request asks for is mapped. -/
def Kernel.map (k : Kernel) (va : GemVa) : Kernel :=
  { k with mappings := insert (k.grant va) k.mappings }

/-- A handle is closed and its mapping dropped. -/
def Kernel.close (k : Kernel) (handle : Nat) : Kernel :=
  { k with
    handles := k.handles.erase handle
    mappings := k.mappings.filter fun m => m.handle ≠ handle }

/-- Only open handles are mapped. -/
def Kernel.Sound (k : Kernel) : Prop := ∀ m ∈ k.mappings, m.handle ∈ k.handles

/-- On descriptor `fd` the driver, seen through `view`, does what it answers. -/
structure Drm.Keeps (drm : Drm κ) (fd : Nat) (view : κ → Kernel) : Prop where
  notCreated : ∀ {args k k'}, drm.gemCreate fd args k = (none, k') → view k' = view k
  created : ∀ {args k handle k'}, drm.gemCreate fd args k = (some handle, k') →
    handle ∉ (view k).handles ∧ view k' = (view k).create handle args
  notMapped : ∀ {va k answer k'}, drm.gemVa fd va k = (answer, k') → MapRefused answer →
    view k' = view k
  mapped : ∀ {va k answer k'}, drm.gemVa fd va k = (answer, k') → ¬ MapRefused answer →
    view k' = (view k).map va
  closed : ∀ handle k, view (drm.gemClose fd handle k) = (view k).close handle

/-- A driver that does what it answers on every descriptor, maps only open
handles, and refuses a range that does not end below 2^64. -/
structure Drm.Honest (drm : Drm κ) (view : Nat → κ → Kernel) : Prop where
  keeps : ∀ fd, drm.Keeps fd (view fd)
  sound : ∀ fd k, (view fd k).Sound
  inside : ∀ {fd va k answer k'}, drm.gemVa fd va k = (answer, k') → ¬ MapRefused answer →
    va.offset + (view fd k).objectSize va.handle < 2 ^ 64

namespace Kernel

variable {k : Kernel}

theorem Sound.create (sound : k.Sound) (handle : Nat) (args : GemCreate) :
    (k.create handle args).Sound := fun m member =>
  Finset.mem_insert_of_mem (sound m member)

theorem Sound.map (sound : k.Sound) {va : GemVa} (isOpen : va.handle ∈ k.handles) :
    (k.map va).Sound := by
  intro m member
  rcases Finset.mem_insert.mp member with rfl | old
  · exact isOpen
  · exact sound m old

theorem Sound.close (sound : k.Sound) (handle : Nat) : (k.close handle).Sound := by
  intro m member
  obtain ⟨old, other⟩ := Finset.mem_filter.mp member
  exact Finset.mem_erase.mpr ⟨other, sound m old⟩

/-- Closing a handle that was just opened leaves no trace of it. -/
theorem close_create (sound : k.Sound) {handle : Nat} (new : handle ∉ k.handles)
    (args : GemCreate) :
    ((k.create handle args).close handle).handles = k.handles ∧
      ((k.create handle args).close handle).mappings = k.mappings := by
  refine ⟨Finset.erase_insert new, Finset.filter_true_of_mem fun m member => ?_⟩
  rintro rfl
  exact new (sound m member)

end Kernel

/-! ## Sequences of requests -/

section Requests

variable {drm : Drm κ} {fd : Nat} {view : κ → Kernel} {k k' : κ}

/-- Requests that were granted opened new handles. -/
theorem Drm.Keeps.opened (keeps : drm.Keeps fd view) {args : List GemCreate}
    {handles : List Nat} (creates : Creates drm fd k args handles k') :
    Opened (view k) (view k') args handles := by
  induction creates with
  | nil => constructor <;> simp
  | cons create _ ih =>
      obtain ⟨new, created⟩ := keeps.created create
      exact Opened.cons new created ih

/-- Mapping leaves the handles and their objects alone. -/
theorem Drm.Keeps.maps (keeps : drm.Keeps fd view) {requests : List GemVa}
    (maps : Maps drm fd k requests k') :
    (view k').handles = (view k).handles ∧ (view k').objectSize = (view k).objectSize := by
  induction maps with
  | nil => exact ⟨rfl, rfl⟩
  | cons reply granted _ ih =>
      rw [keeps.mapped reply granted] at ih
      exact ih

/-- A driver that refuses ranges past 2^64 granted none of them. -/
theorem Drm.Honest.inside_of_maps {view : Nat → κ → Kernel} (honest : drm.Honest view)
    {requests : List GemVa} (maps : Maps drm fd k requests k') :
    ∀ va ∈ requests, va.offset + (view fd k).objectSize va.handle < 2 ^ 64 := by
  induction maps with
  | nil => intro va member; exact absurd member (by simp)
  | cons reply granted _ ih =>
      rw [(honest.keeps fd).mapped reply granted] at ih
      intro va member
      rcases List.mem_cons.mp member with rfl | inRest
      · exact honest.inside reply granted
      · exact ih va inRest

end Requests

/-! ## A driver with a bound on the open handles -/

theorem kernelDrm_keeps (fresh : Allocator) (fd : Nat) : (kernelDrm fresh).Keeps fd id where
  notCreated create := absurd (Prod.mk.inj create).1 (Option.some_ne_none _)
  created {args k handle k'} create := by
    obtain ⟨chosen, rfl⟩ := Prod.mk.inj create
    obtain rfl := Option.some.inj chosen
    exact ⟨fresh.fresh k.handles, rfl⟩
  notMapped {va k answer k'} reply refused := by
    simp only [kernelDrm] at reply
    split at reply
    · exact (Prod.mk.inj reply).2.symm
    · split at reply
      · exact (Prod.mk.inj reply).2.symm
      · obtain ⟨rfl, -⟩ := Prod.mk.inj reply
        exact absurd refused (by decide)
  mapped reply granted := gemVa_granted reply granted
  closed handle k := rfl

/-- Kernel states in which only open handles are mapped. -/
abbrev SoundKernel := { k : Kernel // k.Sound }

theorem kernelDrm_gemVa_sound (fresh : Allocator) (fd : Nat) (va : GemVa) {k : Kernel}
    (sound : k.Sound) : ((kernelDrm fresh).gemVa fd va k).2.Sound := by
  simp only [kernelDrm]
  split
  · exact sound
  · rename_i isOpen
    split
    · exact sound
    · exact sound.map (not_not.mp isOpen)

theorem Kernel.empty_sound : Kernel.empty.Sound := fun m member =>
  absurd member (Finset.notMem_empty m)

/-- A driver nobody has talked to. -/
def SoundKernel.empty : SoundKernel := ⟨Kernel.empty, Kernel.empty_sound⟩

/-- `kernelDrm` with room for `room` open handles and addresses below 2^64. -/
def limitedDrm (fresh : Allocator) (room : Nat) : Drm SoundKernel where
  gemCreate _ args k :=
    if k.1.handles.card < room then
      (some (fresh.choose k.1.handles),
        ⟨k.1.create (fresh.choose k.1.handles) args, k.2.create _ args⟩)
    else (none, k)
  gemVa fd va k :=
    if va.offset + k.1.objectSize va.handle < 2 ^ 64 then
      (((kernelDrm fresh).gemVa fd va k.1).1,
        ⟨((kernelDrm fresh).gemVa fd va k.1).2, kernelDrm_gemVa_sound fresh fd va k.2⟩)
    else ((-22, radeonVaResultError), k)
  gemClose _ handle k := ⟨k.1.close handle, k.2.close handle⟩

theorem limitedDrm_honest (fresh : Allocator) (room : Nat) :
    (limitedDrm fresh room).Honest fun _ k => k.1 where
  keeps fd := by
    constructor
    · intro args k k' create
      simp only [limitedDrm] at create
      split at create
      · exact absurd (Prod.mk.inj create).1 (Option.some_ne_none _)
      · rw [(Prod.mk.inj create).2]
    · intro args k handle k' create
      simp only [limitedDrm] at create
      split at create
      · obtain ⟨chosen, rfl⟩ := Prod.mk.inj create
        obtain rfl := Option.some.inj chosen
        exact ⟨fresh.fresh k.1.handles, rfl⟩
      · exact absurd (Prod.mk.inj create).1.symm (Option.some_ne_none _)
    · intro va k answer k' reply refused
      simp only [limitedDrm] at reply
      split at reply
      · obtain ⟨rfl, rfl⟩ := Prod.mk.inj reply
        exact (kernelDrm_keeps fresh fd).notMapped rfl refused
      · rw [(Prod.mk.inj reply).2]
    · intro va k answer k' reply granted
      simp only [limitedDrm] at reply
      split at reply
      · obtain ⟨rfl, rfl⟩ := Prod.mk.inj reply
        exact (kernelDrm_keeps fresh fd).mapped rfl granted
      · obtain ⟨rfl, -⟩ := Prod.mk.inj reply
        exact absurd (by decide : MapRefused (-22, radeonVaResultError)) granted
    · intro handle k
      rfl
  sound _ k := k.2
  inside {fd va k answer k'} reply granted := by
    simp only [limitedDrm] at reply
    split at reply
    · assumption
    · obtain ⟨rfl, -⟩ := Prod.mk.inj reply
      exact absurd (by decide : MapRefused (-22, radeonVaResultError)) granted

end RadeonsiCompute
