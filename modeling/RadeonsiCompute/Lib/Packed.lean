import RadeonsiCompute.Lib.Encoding

/-!
# Packed bit-field structures

A structure whose fields are bit-fields, allocated in order from the least
significant bit up and without padding. A field starts where the widths of the
fields before it end, so no two fields share a bit. A field that was assigned
reads back what was assigned and no other field changes.
-/

namespace RadeonsiCompute.Lib

/-- The fields of a packed structure, in the order they are declared. -/
structure Packed (ι : Type) [DecidableEq ι] where
  order : List ι
  width : ι → Nat
  nodup : order.Nodup
  all : ∀ i, i ∈ order

namespace Packed

variable {ι : Type} [DecidableEq ι]

/-! ## Where the fields stand -/

section Offsets

variable {width : ι → Nat} {i j : ι}

/-- The bits in front of a field. -/
def offsetIn (width : ι → Nat) : List ι → ι → Nat
  | [], _ => 0
  | k :: order, i => if k = i then 0 else width k + offsetIn width order i

/-- The fields before the first one, and then the first field itself. -/
theorem offsetIn_add_width_le {order : List ι} (listed : i ∈ order) :
    offsetIn width order i + width i ≤ (order.map width).sum := by
  induction order with
  | nil => exact absurd listed (by simp)
  | cons k order ih =>
      rw [offsetIn, List.map_cons, List.sum_cons]
      by_cases first : k = i
      · rw [if_pos first, first]
        omega
      · have later := ih ((List.mem_cons.mp listed).resolve_left (Ne.symm first))
        rw [if_neg first]
        omega

/-- One of two fields ends before the other starts. -/
theorem offsetIn_apart {order : List ι} (left : i ∈ order) (right : j ∈ order) (other : i ≠ j) :
    offsetIn width order i + width i ≤ offsetIn width order j ∨
      offsetIn width order j + width j ≤ offsetIn width order i := by
  induction order with
  | nil => exact absurd left (by simp)
  | cons k order ih =>
      rw [offsetIn, offsetIn]
      by_cases first : k = i
      · subst first
        rw [if_pos rfl, if_neg other]
        omega
      · by_cases second : k = j
        · subst second
          rw [if_pos rfl, if_neg first]
          omega
        · have later := ih ((List.mem_cons.mp left).resolve_left (Ne.symm first))
            ((List.mem_cons.mp right).resolve_left (Ne.symm second))
          rw [if_neg first, if_neg second]
          omega

end Offsets

variable (l : Packed ι)

def offset (i : ι) : Nat := offsetIn l.width l.order i

def size : Nat := (l.order.map l.width).sum

theorem offset_add_width_le (i : ι) : l.offset i + l.width i ≤ l.size :=
  offsetIn_add_width_le (l.all i)

theorem offset_apart {i j : ι} (other : i ≠ j) :
    l.offset i + l.width i ≤ l.offset j ∨ l.offset j + l.width j ≤ l.offset i :=
  offsetIn_apart (l.all i) (l.all j) other

/-! ## Reading and assigning -/

/-- The contents of the structure, the field declared first in the lowest bits. -/
abbrev Bits := BitVec l.size

def get (bits : l.Bits) (i : ι) : BitVec (l.width i) := bits.extractLsb' (l.offset i) (l.width i)

/-- The bits of a field. -/
def cells (i : ι) : l.Bits := (BitVec.allOnes (l.width i)).setWidth l.size <<< l.offset i

def assign (bits : l.Bits) (i : ι) (x : BitVec (l.width i)) : l.Bits :=
  bits &&& ~~~l.cells i ||| x.setWidth l.size <<< l.offset i

/-- Assign several fields, one after the other. -/
def assignAll (v : ∀ i, BitVec (l.width i)) (is : List ι) (bits : l.Bits) : l.Bits :=
  is.foldl (fun bits i => l.assign bits i (v i)) bits

variable {l} {bits : l.Bits} {i j : ι}

theorem getLsbD_get (b : Nat) :
    (l.get bits i).getLsbD b = (decide (b < l.width i) && bits.getLsbD (l.offset i + b)) :=
  BitVec.getLsbD_extractLsb' ..

theorem getLsbD_cells (b : Nat) :
    (l.cells i).getLsbD b = decide (l.offset i ≤ b ∧ b < l.offset i + l.width i) := by
  have inside := l.offset_add_width_le i
  rw [cells, BitVec.getLsbD_shiftLeft, BitVec.getLsbD_setWidth, BitVec.getLsbD_allOnes]
  by_cases low : l.offset i ≤ b
  · by_cases high : b < l.offset i + l.width i
    · have size : b < l.size := by omega
      have width : b - l.offset i < l.width i := by omega
      have before : ¬ b < l.offset i := by omega
      have short : b - l.offset i < l.size := by omega
      simp [low, high, size, width, before, short]
    · have width : ¬ b - l.offset i < l.width i := by omega
      simp [high, width]
  · have before : b < l.offset i := by omega
    simp [low, before]

/-- Inside the field stand the bits of the value, elsewhere what stood there before. -/
theorem getLsbD_assign (x : BitVec (l.width i)) (b : Nat) :
    (l.assign bits i x).getLsbD b =
      if l.offset i ≤ b ∧ b < l.offset i + l.width i then x.getLsbD (b - l.offset i)
      else bits.getLsbD b := by
  have inside := l.offset_add_width_le i
  by_cases size : b < l.size
  · rw [assign, BitVec.getLsbD_or, BitVec.getLsbD_and, BitVec.getLsbD_not, getLsbD_cells,
      BitVec.getLsbD_shiftLeft, BitVec.getLsbD_setWidth]
    by_cases low : l.offset i ≤ b
    · have before : ¬ b < l.offset i := by omega
      have short : b - l.offset i < l.size := by omega
      by_cases high : b < l.offset i + l.width i
      · simp [low, high, size, before, short]
      · have none : x.getLsbD (b - l.offset i) = false := BitVec.getLsbD_of_ge _ _ (by omega)
        simp [high, size, none]
    · have before : b < l.offset i := by omega
      simp [low, size, before]
  · have high : ¬ (l.offset i ≤ b ∧ b < l.offset i + l.width i) := by omega
    rw [if_neg high, BitVec.getLsbD_of_ge _ _ (by omega), BitVec.getLsbD_of_ge _ _ (by omega)]

/-- A field reads back what was assigned to it. -/
theorem get_assign (bits : l.Bits) (x : BitVec (l.width i)) : l.get (l.assign bits i x) i = x := by
  apply BitVec.eq_of_getLsbD_eq
  intro b inside
  have high : l.offset i ≤ l.offset i + b ∧ l.offset i + b < l.offset i + l.width i := by omega
  rw [getLsbD_get, getLsbD_assign, if_pos high, Nat.add_sub_cancel_left, decide_eq_true inside,
    Bool.true_and]

/-- Assigning one field changes no other. -/
theorem get_assign_of_ne (bits : l.Bits) (other : i ≠ j) (x : BitVec (l.width i)) :
    l.get (l.assign bits i x) j = l.get bits j := by
  apply BitVec.eq_of_getLsbD_eq
  intro b inside
  have apart := l.offset_apart other
  have outside : ¬ (l.offset i ≤ l.offset j + b ∧ l.offset j + b < l.offset i + l.width i) := by
    omega
  rw [getLsbD_get, getLsbD_get, getLsbD_assign, if_neg outside]

/-- The fields that were assigned have their values, in whatever order it was done. -/
theorem get_assignAll (v : ∀ i, BitVec (l.width i)) (is : List ι) (bits : l.Bits) (j : ι) :
    l.get (l.assignAll v is bits) j = if j ∈ is then v j else l.get bits j := by
  induction is generalizing bits with
  | nil => rfl
  | cons i is ih =>
      show l.get (l.assignAll v is (l.assign bits i (v i))) j = _
      rw [ih]
      by_cases later : j ∈ is
      · rw [if_pos later, if_pos (List.mem_cons_of_mem _ later)]
      · rw [if_neg later]
        by_cases here : j = i
        · subst here
          rw [get_assign, if_pos List.mem_cons_self]
        · have nowhere : j ∉ i :: is := List.not_mem_cons_of_ne_of_not_mem here later
          rw [get_assign_of_ne bits (Ne.symm here), if_neg nowhere]

/-! ## Words -/

/-- The `k`-th word of `w` bits of the contents. -/
def chunk (w k : Nat) (bits : l.Bits) : BitVec w := bits.extractLsb' (w * k) w

theorem getLsbD_chunk {w k : Nat} (b : Nat) :
    (chunk w k bits).getLsbD b = (decide (b < w) && bits.getLsbD (w * k + b)) :=
  BitVec.getLsbD_extractLsb' ..

/-- A field that lies in one word is read from there. -/
theorem get_chunk (bits : l.Bits) {w k : Nat} {f : Field w} (starts : l.offset i = w * k + f.off)
    (ones : f.mask = (BitVec.allOnes (l.width i)).setWidth w) :
    f.get (chunk w k bits) = (l.get bits i).setWidth w := by
  apply BitVec.eq_of_getLsbD_eq
  intro b inside
  rw [BitVec.getLsbD_setWidth, getLsbD_get, Field.get, BitVec.getLsbD_and,
    BitVec.getLsbD_ushiftRight, getLsbD_chunk, starts]
  have mask : f.mask.getLsbD b = decide (b < l.width i) := by
    rw [ones, BitVec.getLsbD_setWidth, BitVec.getLsbD_allOnes, decide_eq_true inside,
      Bool.true_and]
  by_cases short : b < l.width i
  · have there : f.off + b < w := Field.lt_of_mask (mask.trans (decide_eq_true short))
    simp [mask, short, inside, there, Nat.add_assoc]
  · simp [mask, short]

end Packed

end RadeonsiCompute.Lib
