import RadeonsiCompute.Lib.Packed
import RadeonsiCompute.Cs.Packet

/-!
# Buffer resources

`buffer_resource` is a union of nineteen packed bit-fields with the four dwords
of a descriptor. The register header has macros for the fields of the same four
words. Whatever the fields hold, the dwords are the ones the macros build.
-/

namespace RadeonsiCompute

open Lib

/-- The bit-fields, in the order of their declaration. -/
inductive BufferField
  | baseAddr | stride | cSwizzle | swizzleEn | numRecords | dstSelX | dstSelY | dstSelZ | dstSelW
  | numFormat | dataFormat | elementSize | idxStride | addTidEn | reserved | hashEn | heap
  | unused | zero
  deriving DecidableEq, Repr

namespace BufferField

def order : List BufferField :=
  [baseAddr, stride, cSwizzle, swizzleEn, numRecords, dstSelX, dstSelY, dstSelZ, dstSelW,
    numFormat, dataFormat, elementSize, idxStride, addTidEn, reserved, hashEn, heap, unused, zero]

def width : BufferField → Nat
  | baseAddr => 48
  | stride => 14
  | cSwizzle => 1
  | swizzleEn => 1
  | numRecords => 32
  | dstSelX => 3
  | dstSelY => 3
  | dstSelZ => 3
  | dstSelW => 3
  | numFormat => 3
  | dataFormat => 4
  | elementSize => 2
  | idxStride => 2
  | addTidEn => 1
  | reserved => 1
  | hashEn => 1
  | heap => 1
  | unused => 3
  | zero => 2

def packed : Packed BufferField where
  order := order
  width := width
  nodup := by decide
  all i := by cases i <;> decide

end BufferField

/-- A value for each field, none wider than its field. -/
abbrev BufferValues := ∀ f : BufferField, BitVec f.width

/-- The union: 128 bits, read as fields or as dwords. -/
structure BufferResource where
  bits : BufferField.packed.Bits

namespace BufferResource

/-- The constructor clears the four dwords. -/
def new : BufferResource := ⟨0#_⟩

def data (r : BufferResource) (k : Nat) : Dword := Packed.chunk 32 k r.bits

def get (r : BufferResource) (f : BufferField) : BitVec f.width := BufferField.packed.get r.bits f

def assign (r : BufferResource) (f : BufferField) (x : BitVec f.width) : BufferResource :=
  ⟨BufferField.packed.assign r.bits f x⟩

/-- Assign the listed fields, one after the other. -/
def assignAll (r : BufferResource) (v : BufferValues) (fs : List BufferField) : BufferResource :=
  fs.foldl (fun r f => r.assign f (v f)) r

end BufferResource

/-! ## The words of the register header

The fields of `SQ_BUF_RSRC_WORD1` and `SQ_BUF_RSRC_WORD3`. Words 0 and 2 are one
value each. -/

namespace SqBufRsrc

def baseAddressHi : Field 32 := .of 0 0xFFFF

def stride : Field 32 := .of 16 0x3FFF

def cacheSwizzle : Field 32 := .of 30 0x1

def swizzleEnable : Field 32 := .of 31 0x1

def dstSelX : Field 32 := .of 0 0x07

def dstSelY : Field 32 := .of 3 0x07

def dstSelZ : Field 32 := .of 6 0x07

def dstSelW : Field 32 := .of 9 0x07

def numFormat : Field 32 := .of 12 0x07

def dataFormat : Field 32 := .of 15 0x0F

def elementSize : Field 32 := .of 19 0x03

def indexStride : Field 32 := .of 21 0x03

def addTidEnable : Field 32 := .of 23 0x1

/-- No macro of the header names it on SI. -/
def reserved : Field 32 := .of 24 0x1

def hashEnable : Field 32 := .of 25 0x1

def heap : Field 32 := .of 26 0x1

/-- No macro of the header names it on SI. -/
def unused : Field 32 := .of 27 0x07

def type : Field 32 := .of 30 0x03

/-- The fields of word 1 above the address. -/
def word1Fields : List (Field 32 × BufferField) :=
  [(stride, .stride), (cacheSwizzle, .cSwizzle), (swizzleEnable, .swizzleEn)]

def word3Fields : List (Field 32 × BufferField) :=
  [(dstSelX, .dstSelX), (dstSelY, .dstSelY), (dstSelZ, .dstSelZ), (dstSelW, .dstSelW),
    (numFormat, .numFormat), (dataFormat, .dataFormat), (elementSize, .elementSize),
    (indexStride, .idxStride), (addTidEnable, .addTidEn), (reserved, .reserved),
    (hashEnable, .hashEn), (heap, .heap), (unused, .unused), (type, .zero)]

/-- The listed fields with their values, for the macros of a word. -/
def macros (v : BufferValues) (fields : List (Field 32 × BufferField)) :
    List (Field 32 × Dword) :=
  fields.map fun p => (p.1, (v p.2).setWidth 32)

/-- The descriptor the macros build from the values. -/
def word (v : BufferValues) : Fin 4 → Dword
  | 0 => (v .baseAddr).setWidth 32
  | 1 => baseAddressHi.set ((v .baseAddr >>> 32).setWidth 32) |||
      Field.pack (macros v word1Fields)
  | 2 => (v .numRecords).setWidth 32
  | 3 => Field.pack (macros v word3Fields)

end SqBufRsrc

/-! ## Fields and words -/

namespace BufferResource

open SqBufRsrc

variable (r : BufferResource)

theorem get_assign (f : BufferField) (x : BitVec f.width) : (r.assign f x).get f = x :=
  Packed.get_assign (l := BufferField.packed) r.bits x

theorem get_assign_of_ne {f g : BufferField} (other : f ≠ g) (x : BitVec f.width) :
    (r.assign f x).get g = r.get g :=
  Packed.get_assign_of_ne (l := BufferField.packed) r.bits other x

theorem bits_assignAll (v : BufferValues) (fs : List BufferField) :
    (r.assignAll v fs).bits = BufferField.packed.assignAll v fs r.bits := by
  induction fs generalizing r with
  | nil => rfl
  | cons f fs ih => exact ih (r.assign f (v f))

theorem get_assignAll (v : BufferValues) (fs : List BufferField) (f : BufferField) :
    (r.assignAll v fs).get f = if f ∈ fs then v f else r.get f := by
  have read := Packed.get_assignAll (l := BufferField.packed) v fs r.bits f
  rwa [← bits_assignAll] at read

/-- Fields and macros of a word stand at the same bits. -/
def Aligned (k : Nat) (p : Field 32 × BufferField) : Prop :=
  BufferField.packed.offset p.2 = 32 * k + p.1.off ∧
    p.1.mask = (BitVec.allOnes p.2.width).setWidth 32

instance (k : Nat) (p : Field 32 × BufferField) : Decidable (Aligned k p) :=
  inferInstanceAs (Decidable (_ ∧ _))

theorem word1_aligned : ∀ p ∈ word1Fields, Aligned 1 p := by decide

theorem word3_aligned : ∀ p ∈ word3Fields, Aligned 3 p := by decide

/-- The macros are given what they read from the dword. -/
theorem macros_get {k : Nat} {fields : List (Field 32 × BufferField)}
    (aligned : ∀ p ∈ fields, Aligned k p) :
    macros r.get fields = (fields.map Prod.fst).map fun f => (f, f.get (r.data k)) := by
  rw [macros, List.map_map]
  apply List.map_congr_left
  intro p member
  have read := Packed.get_chunk r.bits (aligned p member).1 (aligned p member).2
  exact congrArg (p.1, ·) read.symm

theorem data_zero : r.data 0 = word r.get 0 := by
  apply BitVec.eq_of_getLsbD_eq
  intro b inside
  have wide : b < BufferField.packed.width .baseAddr := Nat.lt_trans inside (by decide)
  have low : BufferField.packed.offset .baseAddr = 0 := by decide
  show (Packed.chunk 32 0 r.bits).getLsbD b =
    ((BufferField.packed.get r.bits .baseAddr).setWidth 32).getLsbD b
  rw [Packed.getLsbD_chunk, BitVec.getLsbD_setWidth, Packed.getLsbD_get, decide_eq_true inside,
    decide_eq_true wide, low, Nat.mul_zero, Bool.true_and, Bool.true_and]

/-- The upper sixteen bits of the address start the second word. -/
theorem get_baseAddressHi :
    baseAddressHi.get (r.data 1) = (r.get .baseAddr >>> 32).setWidth 32 := by
  apply BitVec.eq_of_getLsbD_eq
  intro b inside
  have low : BufferField.packed.offset .baseAddr = 0 := by decide
  have mask : baseAddressHi.mask.getLsbD b = decide (b < 16) := by
    have ones : baseAddressHi.mask = (BitVec.allOnes 16).setWidth 32 := by decide
    rw [ones, BitVec.getLsbD_setWidth, BitVec.getLsbD_allOnes, decide_eq_true inside,
      Bool.true_and]
  show (Packed.chunk 32 1 r.bits >>> 0 &&& baseAddressHi.mask).getLsbD b =
    ((BufferField.packed.get r.bits .baseAddr >>> 32).setWidth 32).getLsbD b
  rw [BitVec.getLsbD_and, mask, BitVec.getLsbD_ushiftRight, Packed.getLsbD_chunk,
    BitVec.getLsbD_setWidth, BitVec.getLsbD_ushiftRight, Packed.getLsbD_get, low]
  have width : BufferField.packed.width .baseAddr = 48 := rfl
  by_cases short : b < 16
  · have high : 32 + b < 48 := by omega
    simp [short, inside, width, high]
  · have high : ¬ 32 + b < 48 := by omega
    simp [short, width, high]

theorem data_one : r.data 1 = word r.get 1 := by
  have whole := Field.pack_get (baseAddressHi :: word1Fields.map Prod.fst) (r.data 1) (by decide)
  rw [List.map_cons, Field.pack_cons, ← macros_get r word1_aligned, get_baseAddressHi] at whole
  exact whole.symm

theorem data_two : r.data 2 = word r.get 2 := by
  apply BitVec.eq_of_getLsbD_eq
  intro b inside
  have start : BufferField.packed.offset .numRecords = 64 := by decide
  have width : BufferField.packed.width .numRecords = 32 := rfl
  show (Packed.chunk 32 2 r.bits).getLsbD b =
    ((BufferField.packed.get r.bits .numRecords).setWidth 32).getLsbD b
  rw [Packed.getLsbD_chunk, BitVec.getLsbD_setWidth, Packed.getLsbD_get, start, width,
    decide_eq_true inside, Bool.true_and, Bool.true_and]

theorem data_three : r.data 3 = word r.get 3 := by
  have whole := Field.pack_get (word3Fields.map Prod.fst) (r.data 3) (by decide)
  rw [← macros_get r word3_aligned] at whole
  exact whole.symm

/-- Whatever the fields hold, the dwords are the words of the macros. -/
theorem data_eq_word (k : Fin 4) : r.data k = word r.get k :=
  match k with
  | 0 => r.data_zero
  | 1 => r.data_one
  | 2 => r.data_two
  | 3 => r.data_three

end BufferResource

/-- The bit-fields and the macros of the register header describe the same four dwords, a field
reads back what was assigned to it, and assigning it changes no other. -/
theorem bufferResource_agrees :
    (∀ (v : BufferValues) (r : BufferResource) (fs : List BufferField), (∀ f, f ∈ fs) →
      ∀ k : Fin 4, (r.assignAll v fs).data k = SqBufRsrc.word v k) ∧
    (∀ (r : BufferResource) (f : BufferField) (x : BitVec f.width),
      (r.assign f x).get f = x ∧ ∀ g, f ≠ g → (r.assign f x).get g = r.get g) ∧
    ∀ (r : BufferResource) (k : Fin 4), r.data k = SqBufRsrc.word r.get k := by
  refine ⟨?_, ?_, BufferResource.data_eq_word⟩
  · intro v r fs whole k
    have values : (r.assignAll v fs).get = v := by
      funext f
      rw [BufferResource.get_assignAll, if_pos (whole f)]
    rw [BufferResource.data_eq_word, values]
  · intro r f x
    exact ⟨r.get_assign f x, fun g other => r.get_assign_of_ne other x⟩

end RadeonsiCompute
