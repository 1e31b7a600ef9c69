import Mathlib.Data.List.TakeWhile
import Mathlib.Algebra.Group.Int.Defs
import Mathlib.Algebra.Order.Group.Nat
import Mathlib.Tactic.Cases

/-!
# C text

Strings of bytes, the `printf` conversions that write them and the `scanf`
conversions that read them back, as the C standard has them in the "C" locale.
`%li` of `scanf` takes its base from the numeral, as `strtol` with base 0 does,
and stores the nearest `long` to a number that has none; `%d` and `%li` of
`printf` are decimal. `scanNumeral_formatLong` is the round trip.
-/

namespace RadeonsiCompute.Lib

abbrev Byte := UInt8

def byte (c : Char) : Byte := UInt8.ofNat c.toNat

/-- The bytes of a literal. -/
def text (s : String) : List Byte := s.toList.map byte

/-- What a `char *` into these bytes points to. -/
def cString (bytes : List Byte) : List Byte := bytes.takeWhile fun b => b ≠ 0

/-! ## Writing -/

/-- `%u`. -/
def decimal (n : Nat) : List Byte := (Nat.toDigits 10 n).map byte

/-- `%d` and `%li`. -/
def formatLong (v : Int) : List Byte :=
  if v < 0 then byte '-' :: decimal v.natAbs else decimal v.natAbs

/-- `%x` with a field width and the flag `0`. -/
def formatHex (width n : Nat) : List Byte :=
  let digits := (Nat.toDigits 16 n).map byte
  List.replicate (width - digits.length) (byte '0') ++ digits

/-- What `snprintf` leaves in a buffer of `size` bytes. -/
def snprintf (size : Nat) (s : List Byte) : List Byte := s.take (size - 1)

/-! ## Reading -/

/-- `isspace`. -/
def isSpace (b : Byte) : Bool := b == 32 || (9 ≤ b.toNat && b.toNat ≤ 13)

def skipSpace (s : List Byte) : List Byte := s.dropWhile isSpace

def notSpace (b : Byte) : Bool := !isSpace b

/-- `%s`: the word read and what is behind it. -/
def scanString (s : List Byte) : Option (List Byte × List Byte) :=
  let s := skipSpace s
  let word := s.takeWhile notSpace
  if word = [] then none else some (word, s.dropWhile notSpace)

/-- The value of a digit, 16 if it is none. -/
def digitValue (b : Byte) : Nat :=
  if 48 ≤ b.toNat ∧ b.toNat ≤ 57 then b.toNat - 48
  else if 97 ≤ b.toNat ∧ b.toNat ≤ 102 then b.toNat - 87
  else if 65 ≤ b.toNat ∧ b.toNat ≤ 70 then b.toNat - 55
  else 16

def isDigit (base : Nat) (b : Byte) : Bool := digitValue b < base

/-- The number the digits stand for. -/
def numeral (base : Nat) (digits : List Byte) : Nat :=
  digits.foldl (fun n b => base * n + digitValue b) 0

/-- The sign of a numeral, and what is behind it. -/
def scanSign : List Byte → Bool × List Byte
  | b :: s => if b = byte '-' then (true, s) else if b = byte '+' then (false, s)
      else (false, b :: s)
  | [] => (false, [])

/-- The base of a numeral, and its digits with what is behind them. -/
def scanBase : List Byte → Nat × List Byte
  | b :: x :: s =>
      if b = byte '0' then
        if x = byte 'x' ∨ x = byte 'X' then (16, s) else (8, b :: x :: s)
      else (10, b :: x :: s)
  | [b] => if b = byte '0' then (8, [b]) else (10, [b])
  | [] => (10, [])

/-- `%i` of any length: the number read and what is behind it. -/
def scanNumeral (s : List Byte) : Option (Int × List Byte) :=
  let (negative, s) := scanSign (skipSpace s)
  let (base, s) := scanBase s
  let digits := s.takeWhile (isDigit base)
  let value : Int := numeral base digits
  if digits = [] then none
  else some (if negative then -value else value, s.dropWhile (isDigit base))

/-- The `long` that stands for a number. -/
def saturate (v : Int) : Int := max (-2 ^ 63) (min v (2 ^ 63 - 1))

theorem saturate_of_fits {v : Int} (low : -2 ^ 63 ≤ v) (high : v < 2 ^ 63) : saturate v = v := by
  unfold saturate
  omega

/-- The conversions of a `scanf` format. -/
inductive Directive
  | space
  | string
  | long

/-- What a conversion assigns. -/
inductive Scanned
  | string (s : List Byte)
  | long (v : Int)
  deriving DecidableEq, Repr

/-- `sscanf`: the values assigned, up to the first conversion that fails. -/
def sscanf : List Directive → List Byte → List Scanned
  | [], _ => []
  | .space :: format, s => sscanf format (skipSpace s)
  | .string :: format, s =>
      match scanString s with
      | none => []
      | some (word, s) => .string word :: sscanf format s
  | .long :: format, s =>
      match scanNumeral s with
      | none => []
      | some (v, s) => .long (saturate v) :: sscanf format s

/-- A format that reads no argument: its only directives are `%%` and, for
`syslog`, `%m`. -/
def argumentFree : List Byte → Bool
  | [] => true
  | [b] => b != byte '%'
  | b :: c :: s =>
      if b = byte '%' then (c == byte '%' || c == byte 'm') && argumentFree s
      else argumentFree (c :: s)

/-! ## Words -/

/-- Visible bytes only, so neither blanks nor a terminator. -/
def Visible (s : List Byte) : Prop := ∀ b ∈ s, 32 < b.toNat ∧ b.toNat < 127

instance (s : List Byte) : Decidable (Visible s) :=
  List.decidableBAll (fun b : Byte => 32 < b.toNat ∧ b.toNat < 127) s

theorem Visible.append {s t : List Byte} (hs : Visible s) (ht : Visible t) : Visible (s ++ t) := by
  intro b member
  cases List.mem_append.mp member with
  | inl left => exact hs b left
  | inr right => exact ht b right

theorem Visible.cons {b : Byte} {s : List Byte} (hb : 32 < b.toNat ∧ b.toNat < 127)
    (hs : Visible s) : Visible (b :: s) := by
  intro b' member
  cases List.mem_cons.mp member with
  | inl same => rw [same]; exact hb
  | inr inTail => exact hs b' inTail

theorem Visible.notSpace {s : List Byte} (visible : Visible s) : ∀ b ∈ s, notSpace b = true := by
  intro b member
  obtain ⟨above, -⟩ := visible b member
  have notBlank : b ≠ 32 := by
    rintro rfl
    exact absurd above (by decide)
  simp only [Lib.notSpace, isSpace, Bool.not_eq_true', Bool.or_eq_false_iff, beq_eq_false_iff_ne,
    Bool.and_eq_false_iff, decide_eq_false_iff_not]
  exact ⟨notBlank, .inr (by omega)⟩

theorem Visible.cString {s : List Byte} (visible : Visible s) : cString s = s := by
  refine List.takeWhile_eq_self_iff.mpr fun b member => ?_
  obtain ⟨above, -⟩ := visible b member
  have positive : b ≠ 0 := by
    rintro rfl
    exact absurd above (by decide)
  simpa using positive

/-- Blanks in front of a word are skipped, and there are none. -/
theorem skipSpace_of_notSpace {b : Byte} {s : List Byte} (first : notSpace b = true) :
    skipSpace (b :: s) = b :: s := by
  have notBlank : ¬ isSpace b = true := by simpa [notSpace] using first
  exact List.dropWhile_cons_of_neg notBlank

/-- `%s` reads the word in front. -/
theorem scanString_append {word rest : List Byte} (nonempty : word ≠ [])
    (visible : Visible word) (stop : ∀ b ∈ rest.head?, notSpace b = false) :
    scanString (word ++ rest) = some (word, rest) := by
  have all := visible.notSpace
  have skip : skipSpace (word ++ rest) = word ++ rest := by
    cases word with
    | nil => exact absurd rfl nonempty
    | cons b word => exact skipSpace_of_notSpace (all b List.mem_cons_self)
  have front : (word ++ rest).takeWhile notSpace = word := by
    rw [List.takeWhile_append_of_pos all]
    cases rest with
    | nil => simp
    | cons b rest => rw [List.takeWhile_cons_of_neg (by simp [stop b rfl]), List.append_nil]
  have back : (word ++ rest).dropWhile notSpace = rest := by
    rw [List.dropWhile_append_of_pos all]
    cases rest with
    | nil => rfl
    | cons b rest => rw [List.dropWhile_cons_of_neg (by simp [stop b rfl])]
  simp only [scanString, skip, front, back, if_neg nonempty]

/-! ## Numerals -/

/-- The characters `printf` writes a number with are digits. -/
theorem mem_toDigits {base : Nat} (large : 1 < base) (n : Nat) :
    ∀ c ∈ Nat.toDigits base n, ∃ d < base, c = d.digitChar := by
  induction n using Nat.strong_induction_on with
  | _ n ih =>
      intro c member
      rw [Nat.toDigits_eq_if large] at member
      split at member
      · next small => exact ⟨n, small, by simpa using member⟩
      · next big =>
          cases List.mem_append.mp member with
          | inl front =>
              exact ih (n / base) (Nat.div_lt_self (by omega) large) c front
          | inr last => exact ⟨n % base, Nat.mod_lt _ (by omega), by simpa using last⟩

theorem visible_digit : ∀ d < 16, 32 < (byte d.digitChar).toNat ∧ (byte d.digitChar).toNat < 127 := by
  decide

theorem visible_toDigits {base : Nat} (large : 1 < base) (hex : base ≤ 16) (n : Nat) :
    Visible ((Nat.toDigits base n).map byte) := by
  intro b member
  obtain ⟨c, inDigits, rfl⟩ := List.mem_map.mp member
  obtain ⟨d, hd, rfl⟩ := mem_toDigits large n c inDigits
  exact visible_digit d (by omega)

theorem visible_decimal (n : Nat) : Visible (decimal n) :=
  visible_toDigits (by omega) (by omega) n

theorem visible_formatLong (v : Int) : Visible (formatLong v) := by
  unfold formatLong
  split
  · exact (visible_decimal _).cons (by decide)
  · exact visible_decimal _

theorem visible_formatHex (width n : Nat) : Visible (formatHex width n) := by
  refine Visible.append ?_ (visible_toDigits (by omega) (by omega) n)
  intro b member
  rw [List.eq_of_mem_replicate member]
  decide

theorem length_decimal_le {n k : Nat} (positive : 0 < k) (small : n < 10 ^ k) :
    (decimal n).length ≤ k := by
  rw [decimal, List.length_map]
  exact (Nat.length_toDigits_le_iff (by omega) positive).mpr small

theorem length_formatHex_le {width n k : Nat} (positive : 0 < k) (small : n < 16 ^ k) :
    (formatHex width n).length ≤ max width k := by
  have digits := (Nat.length_toDigits_le_iff (by omega) positive).mpr small
  simp only [formatHex, List.length_append, List.length_replicate, List.length_map]
  omega

theorem isDigit_digit : ∀ base ≤ 16, ∀ d < base, isDigit base (byte d.digitChar) = true := by
  decide

theorem digitValue_digit : ∀ d < 16, digitValue (byte d.digitChar) = d := by decide

theorem isDigit_toDigits {base : Nat} (large : 1 < base) (hex : base ≤ 16) (n : Nat) :
    ∀ b ∈ (Nat.toDigits base n).map byte, isDigit base b = true := by
  intro b member
  obtain ⟨c, inDigits, rfl⟩ := List.mem_map.mp member
  obtain ⟨d, hd, rfl⟩ := mem_toDigits large n c inDigits
  exact isDigit_digit base hex d hd

theorem isDigit_decimal (n : Nat) : ∀ b ∈ decimal n, isDigit 10 b = true :=
  isDigit_toDigits (by omega) (by omega) n

theorem percent_notMem_formatLong (v : Int) : byte '%' ∉ formatLong v := by
  have notDigit : ∀ n, byte '%' ∉ decimal n := fun n member =>
    absurd (isDigit_decimal n _ member) (by decide)
  unfold formatLong
  split
  · intro member
    cases List.mem_cons.mp member with
    | inl minus => exact absurd minus (by decide)
    | inr inDigits => exact notDigit _ inDigits
  · exact notDigit _

theorem numeral_append_singleton (base : Nat) (digits : List Byte) (b : Byte) :
    numeral base (digits ++ [b]) = base * numeral base digits + digitValue b := by
  simp [numeral, List.foldl_append]

/-- The number is read back from its digits. -/
theorem numeral_toDigits {base : Nat} (large : 1 < base) (hex : base ≤ 16) (n : Nat) :
    numeral base ((Nat.toDigits base n).map byte) = n := by
  induction n using Nat.strong_induction_on with
  | _ n ih =>
      rw [Nat.toDigits_eq_if large]
      split
      · next small =>
          simp only [List.map_cons, List.map_nil, numeral, List.foldl_cons, List.foldl_nil]
          rw [digitValue_digit n (by omega)]
          omega
      · next big =>
          have front := ih (n / base) (Nat.div_lt_self (by omega) large)
          have last : n % base < 16 := Nat.lt_of_lt_of_le (Nat.mod_lt n (by omega)) hex
          rw [List.map_append, List.map_cons, List.map_nil, numeral_append_singleton, front,
            digitValue_digit _ last]
          exact Nat.div_add_mod n base

theorem numeral_decimal (n : Nat) : numeral 10 (decimal n) = n :=
  numeral_toDigits (by omega) (by omega) n

/-- Only zero is written with a leading zero. -/
theorem decimal_head {n : Nat} (positive : 0 < n) : (decimal n).head? ≠ some (byte '0') := by
  induction n using Nat.strong_induction_on with
  | _ n ih =>
      unfold decimal
      rw [Nat.toDigits_eq_if (by omega)]
      split
      · next small =>
          have digits : ∀ d < 10, 0 < d → byte d.digitChar ≠ byte '0' := by decide
          simpa using digits n small positive
      · next big =>
          have front := ih (n / 10) (by omega) (by omega)
          unfold decimal at front
          have nonempty : (Nat.toDigits 10 (n / 10)).map byte ≠ [] := by
            simp [Nat.toDigits_ne_nil]
          obtain ⟨b, digits, split⟩ := List.exists_cons_of_ne_nil nonempty
          rw [List.map_append, split]
          rwa [split] at front

theorem decimal_ne_nil (n : Nat) : decimal n ≠ [] := by
  simp [decimal, Nat.toDigits_ne_nil]

/-- The base of a printed number, and all its digits. -/
theorem scanBase_decimal {n : Nat} {rest : List Byte} (positive : 0 < n) :
    scanBase (decimal n ++ rest) = (10, decimal n ++ rest) := by
  have head := decimal_head positive
  have nonempty := decimal_ne_nil n
  generalize decimal n = digits at head nonempty
  cases digits with
  | nil => exact absurd rfl nonempty
  | cons b digits =>
      have notZero : b ≠ byte '0' := by simpa using head
      rw [List.cons_append]
      cases digits ++ rest with
      | nil => exact if_neg notZero
      | cons x s => exact if_neg notZero

/-- A run of digits is read whole. -/
theorem takeWhile_digits {base : Nat} {digits rest : List Byte}
    (all : ∀ b ∈ digits, isDigit base b = true) (stop : ∀ b ∈ rest.head?, isDigit base b = false) :
    (digits ++ rest).takeWhile (isDigit base) = digits ∧
      (digits ++ rest).dropWhile (isDigit base) = rest := by
  rw [List.takeWhile_append_of_pos all, List.dropWhile_append_of_pos all]
  cases rest with
  | nil => simp
  | cons b rest => simp [stop b rfl]

/-- Without a sign the number is read as it was written. -/
theorem scanBase_digits (n : Nat) :
    ∃ base, scanBase (decimal n) = (base, decimal n) ∧
      (decimal n).takeWhile (isDigit base) = decimal n ∧
      (decimal n).dropWhile (isDigit base) = [] ∧ numeral base (decimal n) = n := by
  cases n with
  | zero => exact ⟨8, by decide, by decide, by decide, by decide⟩
  | succ n =>
      have base := @scanBase_decimal (n + 1) [] (by omega)
      have whole := @takeWhile_digits 10 _ [] (isDigit_decimal (n + 1)) (by simp)
      rw [List.append_nil] at base whole
      exact ⟨10, base, whole.1, whole.2, numeral_decimal _⟩

/-- A printed number has no sign but the one in front. -/
theorem scanSign_decimal (n : Nat) : scanSign (decimal n) = (false, decimal n) := by
  have digits := isDigit_decimal n
  cases written : decimal n with
  | nil => rfl
  | cons b s =>
      have digit := digits b (by simp [written])
      have notMinus : b ≠ byte '-' := by
        rintro rfl
        exact absurd digit (by decide)
      have notPlus : b ≠ byte '+' := by
        rintro rfl
        exact absurd digit (by decide)
      simp only [scanSign, if_neg notMinus, if_neg notPlus]

theorem skipSpace_visible {s : List Byte} (visible : Visible s) : skipSpace s = s := by
  cases s with
  | nil => rfl
  | cons b s => exact skipSpace_of_notSpace (visible.notSpace b List.mem_cons_self)

/-- **Round trip.** `%li` reads back what `%li` printed. -/
theorem scanNumeral_formatLong (v : Int) : scanNumeral (formatLong v) = some (v, []) := by
  obtain ⟨base, scanned, digits, rest, value⟩ := scanBase_digits v.natAbs
  have skip := skipSpace_visible (visible_formatLong v)
  unfold scanNumeral
  rw [skip]
  unfold formatLong
  by_cases negative : v < 0
  · simp only [if_pos negative, scanSign, if_true, scanned, digits, rest, value,
      if_neg (decimal_ne_nil _)]
    congr 2
    omega
  · simp only [if_neg negative, scanSign_decimal, scanned, digits, rest, value,
      if_neg (decimal_ne_nil _)]
    congr 2
    simp
    omega

/-! ## Formats -/

/-- Text without a `%` in front is copied. -/
theorem argumentFree_append_left {pre : List Byte} (s : List Byte) (plain : byte '%' ∉ pre) :
    argumentFree (pre ++ s) = argumentFree s := by
  induction pre with
  | nil => rfl
  | cons b pre ih =>
      have other : b ≠ byte '%' := fun same => plain (same ▸ List.mem_cons_self)
      rw [List.cons_append, ← ih fun member => plain (List.mem_cons_of_mem b member)]
      cases pre ++ s with
      | nil => simpa [argumentFree] using other
      | cons c rest => rw [argumentFree, if_neg other]

/-- Text without a `%` behind is copied too, unless it completes a directive. -/
theorem argumentFree_append_right {post : List Byte} (s : List Byte) (plain : byte '%' ∉ post)
    (start : post.head? ≠ some (byte 'm')) : argumentFree (s ++ post) = argumentFree s := by
  have free : argumentFree post = true := by
    have copied := argumentFree_append_left [] plain
    rwa [List.append_nil] at copied
  induction s using argumentFree.induct with
  | case1 => exact free
  | case2 b =>
      cases post with
      | nil => rfl
      | cons c post =>
          have notPercent : c ≠ byte '%' := fun same => plain (same ▸ List.mem_cons_self)
          have notM : c ≠ byte 'm' := by simpa using start
          rw [List.singleton_append, argumentFree, argumentFree]
          by_cases percent : b = byte '%'
          · simp [percent, notPercent, notM]
          · simp [percent, free]
  | case3 c s ih =>
      rw [List.cons_append, List.cons_append, argumentFree, argumentFree, if_pos rfl, if_pos rfl,
        ih]
  | case4 b c s other ih =>
      rw [List.cons_append, List.cons_append, argumentFree, argumentFree, if_neg other,
        if_neg other]
      exact ih

end RadeonsiCompute.Lib
