import Mathlib.Data.BitVec
import Mathlib.Tactic.Common

/-!
# Bit fields of a word

A field is a mask and the bit it starts at. `set` packs a value into an empty
word and `get` reads it back, masking on the way as the C macros do, so words
are built by `or`ing fields together. A field reads back what was packed into
it, and nothing of what was packed into a field apart from it.
-/

namespace RadeonsiCompute.Lib

/-- A field of a `w`-bit word. No bit of the mask is shifted out. -/
structure Field (w : Nat) where
  off : Nat
  mask : BitVec w
  fits : mask <<< off >>> off = mask

namespace Field

variable {w : Nat} {f g : Field w}

/-- The field of a mask, less the bits that would be shifted out. -/
def of (off : Nat) (mask : BitVec w) : Field w where
  off := off
  mask := mask <<< off >>> off
  fits := by
    apply BitVec.eq_of_getLsbD_eq
    intro i hi
    simp only [BitVec.getLsbD_ushiftRight, BitVec.getLsbD_shiftLeft]
    grind

/-- `((x) & mask) << off`. -/
def set (f : Field w) (x : BitVec w) : BitVec w := (x &&& f.mask) <<< f.off

/-- `((x) >> off) & mask`. -/
def get (f : Field w) (word : BitVec w) : BitVec w := word >>> f.off &&& f.mask

/-- The bits of the word the field is made of. -/
def cells (f : Field w) : BitVec w := f.mask <<< f.off

/-- Two fields share no bit. -/
def Apart (f g : Field w) : Prop := f.cells &&& g.cells = 0#w

instance (f g : Field w) : Decidable (f.Apart g) := inferInstanceAs (Decidable (_ = _))

/-- The value is not cut off by the field. -/
def Holds (f : Field w) (x : BitVec w) : Prop := x &&& f.mask = x

instance (f : Field w) (x : BitVec w) : Decidable (f.Holds x) := inferInstanceAs (Decidable (_ = _))

theorem Apart.symm (apart : f.Apart g) : g.Apart f := by
  rw [Apart, BitVec.and_comm]
  exact apart

/-- A bit of the mask lands inside the word. -/
theorem lt_of_mask {i : Nat} (bit : f.mask.getLsbD i = true) : f.off + i < w := by
  have back := congrArg (fun x => x.getLsbD i) f.fits
  simp only [BitVec.getLsbD_ushiftRight, BitVec.getLsbD_shiftLeft, bit, Bool.and_eq_true,
    decide_eq_true_eq] at back
  exact back.1.1

theorem get_or (a b : BitVec w) : f.get (a ||| b) = f.get a ||| f.get b := by
  unfold get
  ext i
  simp [Bool.and_or_distrib_right]

theorem get_zero : f.get 0#w = 0#w := by
  simp [get]

/-- A value is packed into the lowest field as it is, but for the cut. -/
theorem set_of_off (low : f.off = 0) (x : BitVec w) : f.set x = x &&& f.mask := by
  rw [set, low, BitVec.shiftLeft_zero]

/-- A field reads back what was packed into it. -/
theorem get_set (x : BitVec w) : f.get (f.set x) = x &&& f.mask := by
  apply BitVec.eq_of_getLsbD_eq
  intro i hi
  simp only [get, set, BitVec.getLsbD_and, BitVec.getLsbD_ushiftRight, BitVec.getLsbD_shiftLeft]
  cases bit : f.mask.getLsbD i with
  | false => simp
  | true =>
      have inside := lt_of_mask bit
      simp [inside, bit]

theorem get_set_of_holds {x : BitVec w} (holds : f.Holds x) : f.get (f.set x) = x :=
  (get_set x).trans holds

/-- A field reads nothing of a value packed into another. -/
theorem get_set_of_apart (apart : f.Apart g) (x : BitVec w) : f.get (g.set x) = 0#w := by
  apply BitVec.eq_of_getLsbD_eq
  intro i hi
  simp only [get, set, BitVec.getLsbD_and, BitVec.getLsbD_ushiftRight, BitVec.getLsbD_shiftLeft]
  cases bit : f.mask.getLsbD i with
  | false => simp
  | true =>
      have inside := lt_of_mask bit
      have disjoint := congrArg (fun x => x.getLsbD (f.off + i)) apart
      simp only [cells, BitVec.getLsbD_and, BitVec.getLsbD_shiftLeft, inside, decide_true,
        Nat.add_sub_cancel_left, bit, Bool.true_and, Bool.and_true] at disjoint
      simp only [inside, decide_true, Bool.true_and, Bool.and_true]
      by_cases before : f.off + i < g.off
      · simp [before]
      · simp only [before, decide_false, Bool.not_false, Bool.true_and] at disjoint ⊢
        simpa using fun _ => by simpa using disjoint

/-- A field with a mask of `n` ones cuts a value to `n` bits. -/
theorem toNat_and_mask {n : Nat} (ones : f.mask.toNat = 2 ^ n - 1) (x : BitVec w) :
    (x &&& f.mask).toNat = x.toNat % 2 ^ n := by
  rw [BitVec.toNat_and, ones, Nat.and_two_pow_sub_one_eq_mod]

/-- A field with a mask of `n` ones holds the values below `2 ^ n`. -/
theorem holds_iff_lt {n : Nat} (ones : f.mask.toNat = 2 ^ n - 1) {x : BitVec w} :
    f.Holds x ↔ x.toNat < 2 ^ n := by
  have same : f.Holds x ↔ x.toNat % 2 ^ n = x.toNat := by
    rw [Holds, ← BitVec.toNat_inj, toNat_and_mask ones]
  rw [same, Nat.mod_eq_iff_lt (Nat.pow_pos (by decide)).ne']

/-! ## Packed words -/

/-- The word with the given values in the given fields. -/
def pack (ps : List (Field w × BitVec w)) : BitVec w :=
  ps.foldr (fun p word => p.1.set p.2 ||| word) 0#w

/-- No two fields of the list share a bit. -/
abbrev AllApart (ps : List (Field w × BitVec w)) : Prop := (ps.map Prod.fst).Pairwise Apart

theorem pack_cons (p : Field w × BitVec w) (ps : List (Field w × BitVec w)) :
    pack (p :: ps) = p.1.set p.2 ||| pack ps := rfl

theorem get_pack_of_apart {ps : List (Field w × BitVec w)}
    (apart : ∀ g ∈ ps.map Prod.fst, f.Apart g) : f.get (pack ps) = 0#w := by
  induction ps with
  | nil => exact get_zero
  | cons p ps ih =>
      rw [List.map_cons, List.forall_mem_cons] at apart
      rw [pack_cons, get_or, get_set_of_apart apart.1, ih apart.2, BitVec.or_zero]

/-- Each field of a packed word reads its own value. -/
theorem get_pack {ps : List (Field w × BitVec w)} (apart : AllApart ps) :
    ∀ p ∈ ps, p.1.get (pack ps) = p.2 &&& p.1.mask := by
  induction ps with
  | nil => intro p member; exact absurd member (by simp)
  | cons q ps ih =>
      rw [AllApart, List.map_cons, List.pairwise_cons] at apart
      intro p member
      rw [pack_cons, get_or]
      cases member with
      | head => rw [get_set, get_pack_of_apart apart.1, BitVec.or_zero]
      | tail _ later =>
          have fromLater := apart.1 p.1 (List.mem_map_of_mem later)
          rw [get_set_of_apart fromLater.symm, ih apart.2 p later, BitVec.zero_or]

end Field

end RadeonsiCompute.Lib
