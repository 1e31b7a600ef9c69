import RadeonsiCompute.Lib.Text

/-!
# Numerals in a `scanf` format

`%x`, `%d` and the bytes of a format that stand for themselves, with 32-bit
arguments. A numeral is read to the last byte that can belong to it. What it
stands for is converted as `strtoul` and `strtol` do on a machine with 64-bit
`long`, and the lower half of it is stored.
-/

namespace RadeonsiCompute.Lib

/-! ## Numerals -/

/-- The digits in front, and what is behind them. -/
def scanDigits (base : Nat) (s : List Byte) : Option (Nat × List Byte) :=
  let digits := s.takeWhile (isDigit base)
  if digits = [] then none else some (numeral base digits, s.dropWhile (isDigit base))

/-- The `0x` in front of a hexadecimal numeral. -/
def skipHexPrefix : List Byte → List Byte
  | b :: x :: s => if b = byte '0' ∧ (x = byte 'x' ∨ x = byte 'X') then s else b :: x :: s
  | s => s

/-- What `strtoul` makes of a numeral, cut to an `unsigned int`. -/
def strtoul (negative : Bool) (n : Nat) : BitVec 32 :=
  if n < 2 ^ 64 then .ofInt 32 (if negative then -n else n) else .allOnes 32

/-- What `strtol` makes of a numeral, cut to an `int`. -/
def strtol (negative : Bool) (n : Nat) : BitVec 32 :=
  .ofInt 32 (saturate (if negative then -n else n))

/-- `%x`: the value stored and what is behind it. -/
def scanHex (s : List Byte) : Option (BitVec 32 × List Byte) :=
  let (negative, s) := scanSign (skipSpace s)
  (scanDigits 16 (skipHexPrefix s)).map fun (n, rest) => (strtoul negative n, rest)

/-- `%d`: the value stored and what is behind it. -/
def scanInt (s : List Byte) : Option (BitVec 32 × List Byte) :=
  let (negative, s) := scanSign (skipSpace s)
  (scanDigits 10 s).map fun (n, rest) => (strtol negative n, rest)

/-! ## Formats -/

inductive Conversion
  | literal (b : Byte)
  | hex
  | int
  deriving DecidableEq, Repr

/-- The values a call assigns, up to the first conversion that fails. -/
def scanf : List Conversion → List Byte → List (BitVec 32)
  | [], _ => []
  | .literal _ :: _, [] => []
  | .literal b :: format, c :: s => if c = b then scanf format s else []
  | .hex :: format, s =>
      match scanHex s with
      | none => []
      | some (v, s) => v :: scanf format s
  | .int :: format, s =>
      match scanInt s with
      | none => []
      | some (v, s) => v :: scanf format s

section Read

variable {base : Nat} {format : List Conversion} {digits rest s : List Byte}

theorem scanf_literal (b : Byte) : scanf (.literal b :: format) (b :: s) = scanf format s :=
  if_pos rfl

theorem scanf_literal_of_ne {b c : Byte} (other : c ≠ b) :
    scanf (.literal b :: format) (c :: s) = [] := if_neg other

theorem scanf_hex {v : BitVec 32} (read : scanHex s = some (v, rest)) :
    scanf (.hex :: format) s = v :: scanf format rest := by
  rw [scanf, read]

theorem scanf_int {v : BitVec 32} (read : scanInt s = some (v, rest)) :
    scanf (.int :: format) s = v :: scanf format rest := by
  rw [scanf, read]

/-! ## Reading a run of digits -/

/-- The run ends the string, or a byte follows that no numeral has in it. -/
def Ends (rest : List Byte) : Prop := ∀ b ∈ rest.head?, b = byte ':' ∨ b = byte '.'

theorem ends_nil : Ends [] := by
  intro b none
  cases none

theorem ends_colon (s : List Byte) : Ends (byte ':' :: s) := by
  intro b first
  cases first
  exact .inl rfl

theorem ends_dot (s : List Byte) : Ends (byte '.' :: s) := by
  intro b first
  cases first
  exact .inr rfl

theorem Ends.not_digit (ends : Ends rest) (hex : base ≤ 16) :
    ∀ b ∈ rest.head?, isDigit base b = false := by
  intro b first
  have colon : ∀ base ≤ 16, isDigit base (byte ':') = false := by decide
  have dot : ∀ base ≤ 16, isDigit base (byte '.') = false := by decide
  cases ends b first with
  | inl same => exact same ▸ colon base hex
  | inr same => exact same ▸ dot base hex

theorem range_of_isDigit {b : Byte} (digit : isDigit 16 b = true) :
    48 ≤ b.toNat ∧ b.toNat ≤ 57 ∨ 97 ≤ b.toNat ∧ b.toNat ≤ 102 ∨
      65 ≤ b.toNat ∧ b.toNat ≤ 70 := by
  by_contra outside
  have none : digitValue b = 16 := by
    unfold digitValue
    split
    · omega
    · split
      · omega
      · split
        · omega
        · rfl
  rw [isDigit, none] at digit
  exact absurd digit (by decide)

/-- Digits are neither blanks nor signs, nor the `x` of a prefix. -/
theorem not_special_of_isDigit {b : Byte} (digit : isDigit 16 b = true) :
    notSpace b = true ∧ b ≠ byte '-' ∧ b ≠ byte '+' ∧ b ≠ byte 'x' ∧ b ≠ byte 'X' := by
  have range := range_of_isDigit digit
  refine ⟨?_, ?_, ?_, ?_, ?_⟩
  · have notBlank : b ≠ 32 := by
      rintro rfl
      exact absurd digit (by decide)
    simp only [notSpace, isSpace, Bool.not_eq_true', Bool.or_eq_false_iff, beq_eq_false_iff_ne,
      Bool.and_eq_false_iff, decide_eq_false_iff_not]
    exact ⟨notBlank, .inr (by omega)⟩
  · rintro rfl
    exact absurd digit (by decide)
  · rintro rfl
    exact absurd digit (by decide)
  · rintro rfl
    exact absurd digit (by decide)
  · rintro rfl
    exact absurd digit (by decide)

theorem isDigit_mono {b : Byte} {base' : Nat} (le : base ≤ base') (digit : isDigit base b = true) :
    isDigit base' b = true := by
  rw [isDigit, decide_eq_true_eq] at digit ⊢
  omega

/-- A run of digits has nothing to skip in front and no sign. -/
theorem scanSign_digits (nonempty : digits ≠ []) (all : ∀ b ∈ digits, isDigit 16 b = true) :
    scanSign (skipSpace (digits ++ rest)) = (false, digits ++ rest) := by
  cases digits with
  | nil => exact absurd rfl nonempty
  | cons b digits =>
      obtain ⟨visible, notMinus, notPlus, -⟩ := not_special_of_isDigit (all b List.mem_cons_self)
      rw [List.cons_append, skipSpace_of_notSpace visible, scanSign, if_neg notMinus,
        if_neg notPlus]

theorem skipHexPrefix_digits (all : ∀ b ∈ digits, isDigit 16 b = true) (ends : Ends rest) :
    skipHexPrefix (digits ++ rest) = digits ++ rest := by
  have next : ∀ x s, digits ++ rest = byte '0' :: x :: s → x ≠ byte 'x' ∧ x ≠ byte 'X' := by
    intro x s split
    cases digits with
    | nil =>
        have first := ends (byte '0') (by rw [show rest = _ from split]; rfl)
        exact absurd first (by decide)
    | cons b digits =>
        obtain ⟨-, later⟩ := List.cons.inj split
        cases digits with
        | nil =>
            cases ends x (by rw [show rest = _ from later]; rfl) with
            | inl same => exact same ▸ by decide
            | inr same => exact same ▸ by decide
        | cons c digits =>
            obtain ⟨rfl, -⟩ := List.cons.inj later
            have digit := all c (List.mem_cons_of_mem _ List.mem_cons_self)
            exact (not_special_of_isDigit digit).2.2.2
  cases split : digits ++ rest with
  | nil => rfl
  | cons b s =>
      cases s with
      | nil => rfl
      | cons x s =>
          apply if_neg
          rintro ⟨rfl, marked⟩
          have plain := next x s split
          exact marked.elim plain.1 plain.2

theorem scanDigits_digits (nonempty : digits ≠ []) (all : ∀ b ∈ digits, isDigit base b = true)
    (stop : ∀ b ∈ rest.head?, isDigit base b = false) :
    scanDigits base (digits ++ rest) = some (numeral base digits, rest) := by
  have whole := takeWhile_digits all stop
  rw [scanDigits, whole.1, whole.2, if_neg nonempty]

/-- `%x` reads a run of hexadecimal digits. -/
theorem scanHex_digits (nonempty : digits ≠ []) (all : ∀ b ∈ digits, isDigit 16 b = true)
    (ends : Ends rest) :
    scanHex (digits ++ rest) = some (strtoul false (numeral 16 digits), rest) := by
  rw [scanHex, scanSign_digits nonempty all]
  dsimp only
  rw [skipHexPrefix_digits all ends,
    scanDigits_digits nonempty all (ends.not_digit (by decide)), Option.map_some]

/-- `%d` reads the decimal digits in front of a run, if there are any. -/
theorem scanInt_digits (nonempty : digits ≠ []) (all : ∀ b ∈ digits, isDigit 16 b = true) :
    scanInt (digits ++ rest) =
      (scanDigits 10 (digits ++ rest)).map fun p => (strtol false p.1, p.2) := by
  rw [scanInt, scanSign_digits nonempty all]

/-- `%d` reads a run of decimal digits. -/
theorem scanInt_decimal (nonempty : digits ≠ []) (all : ∀ b ∈ digits, isDigit 10 b = true)
    (ends : Ends rest) :
    scanInt (digits ++ rest) = some (strtol false (numeral 10 digits), rest) := by
  rw [scanInt_digits nonempty fun b member => isDigit_mono (by decide) (all b member),
    scanDigits_digits nonempty all (ends.not_digit (by decide)), Option.map_some]

end Read

/-! ## What is behind a numeral -/

section Rest

variable {digits rest s : List Byte} {v : BitVec 32}

theorem scanSign_subset (s : List Byte) : (scanSign s).2 ⊆ s := by
  cases s with
  | nil => exact List.Subset.refl _
  | cons b s =>
      rw [scanSign]
      split
      · exact List.subset_cons_self b s
      · split
        · exact List.subset_cons_self b s
        · exact List.Subset.refl _

theorem skipHexPrefix_subset (s : List Byte) : skipHexPrefix s ⊆ s := by
  unfold skipHexPrefix
  split
  · split
    · exact List.Subset.trans (List.subset_cons_self _ _) (List.subset_cons_self _ _)
    · exact List.Subset.refl _
  · exact List.Subset.refl _

theorem scanDigits_subset {base n : Nat} (read : scanDigits base s = some (n, rest)) :
    rest ⊆ s := by
  rw [scanDigits] at read
  split at read
  · cases read
  · obtain ⟨-, rfl⟩ := Prod.mk.inj (Option.some.inj read)
    exact List.dropWhile_subset (isDigit base)

/-- What is behind a numeral was in the string. -/
theorem scanHex_subset (read : scanHex s = some (v, rest)) : rest ⊆ s := by
  obtain ⟨⟨n, behind⟩, scanned, same⟩ := Option.map_eq_some_iff.mp read
  obtain ⟨-, rfl⟩ := Prod.mk.inj same
  have digits : behind ⊆ skipHexPrefix (scanSign (skipSpace s)).2 := scanDigits_subset scanned
  have marked := List.Subset.trans digits (skipHexPrefix_subset _)
  have signed := List.Subset.trans marked (scanSign_subset _)
  exact List.Subset.trans signed (List.dropWhile_subset isSpace)

/-- Without the byte that must follow, only the numeral is assigned. -/
theorem length_scanf_hex_le (format : List Conversion) {b : Byte} (absent : b ∉ s) :
    (scanf (.hex :: .literal b :: format) s).length ≤ 1 := by
  cases read : scanHex s with
  | none =>
      rw [scanf, read]
      exact Nat.zero_le _
  | some p =>
      obtain ⟨v, rest⟩ := p
      have inside := scanHex_subset read
      rw [scanf_hex read]
      cases rest with
      | nil => exact Nat.le_refl _
      | cons c rest =>
          have other : c ≠ b := fun same => absent (inside (same ▸ List.mem_cons_self))
          rw [scanf_literal_of_ne other]
          exact Nat.le_refl _

/-- A letter among the digits stands where the next byte of the format should. -/
theorem length_scanf_int_le (format : List Conversion) (rest : List Byte) {b : Byte}
    (nonempty : digits ≠ []) (all : ∀ c ∈ digits, isDigit 16 c = true)
    (letter : ¬ ∀ c ∈ digits, isDigit 10 c = true)
    (special : isDigit 16 b = false) :
    (scanf (.int :: .literal b :: format) (digits ++ rest)).length ≤ 1 := by
  have stays : digits.dropWhile (isDigit 10) ≠ [] := fun gone =>
    letter (List.dropWhile_eq_nil_iff.mp gone)
  obtain ⟨c, behind, split⟩ := List.exists_cons_of_ne_nil stays
  have inside : c ∈ digits :=
    List.dropWhile_subset (isDigit 10) (split ▸ List.mem_cons_self)
  have other : c ≠ b := by
    rintro rfl
    exact absurd (special.symm.trans (all c inside)) (by decide)
  have left : (digits ++ rest).dropWhile (isDigit 10) = c :: (behind ++ rest) := by
    rw [List.dropWhile_append, split]
    rfl
  rw [scanf, scanInt_digits nonempty all, scanDigits]
  by_cases empty : (digits ++ rest).takeWhile (isDigit 10) = []
  · rw [if_pos empty]
    exact Nat.zero_le _
  · rw [if_neg empty, Option.map_some, left]
    show (_ :: scanf (.literal b :: format) (c :: (behind ++ rest))).length ≤ 1
    rw [scanf_literal_of_ne other]
    exact Nat.le_refl _

/-- A run of digits starts a decimal number if its first digit is decimal. -/
theorem length_scanf_int_digits (nonempty : digits ≠ [])
    (all : ∀ c ∈ digits, isDigit 16 c = true) :
    (scanf [.int] digits).length = 1 ↔ ∀ c ∈ digits.head?, isDigit 10 c = true := by
  have run := @scanInt_digits digits [] nonempty all
  rw [List.append_nil] at run
  rw [scanf, run, scanDigits]
  cases digits with
  | nil => exact absurd rfl nonempty
  | cons c digits =>
      cases first : isDigit 10 c with
      | true =>
          rw [List.takeWhile_cons_of_pos first, if_neg (List.cons_ne_nil _ _)]
          exact iff_of_true rfl fun d same => by cases same; exact first
      | false =>
          rw [List.takeWhile_cons_of_neg (by rw [first]; decide), if_pos rfl]
          refine iff_of_false (by decide) fun decimal => ?_
          exact absurd (first.symm.trans (decimal c rfl)) (by decide)

end Rest

/-! ## The values of numerals -/

theorem strtoul_of_lt {n : Nat} (small : n < 2 ^ 32) : strtoul false n = .ofNat 32 n := by
  rw [strtoul, if_pos (Nat.lt_trans small (by decide))]
  exact BitVec.ofInt_natCast 32 n

theorem strtol_of_lt {n : Nat} (small : n < 2 ^ 32) : strtol false n = .ofNat 32 n := by
  have exact : saturate (n : Int) = n := saturate_of_fits (by omega) (by omega)
  show BitVec.ofInt 32 (saturate (n : Int)) = _
  rw [exact]
  exact BitVec.ofInt_natCast 32 n

/-- Zeros in front do not change a number. -/
theorem numeral_zeros (base k : Nat) (digits : List Byte) :
    numeral base (List.replicate k (byte '0') ++ digits) = numeral base digits := by
  induction k with
  | zero => rfl
  | succ k ih =>
      have zero : base * 0 + digitValue (byte '0') = 0 := by
        rw [Nat.mul_zero]
        rfl
      rw [List.replicate_succ, List.cons_append, ← ih, numeral, List.foldl_cons, zero, numeral]

theorem formatHex_ne_nil (width n : Nat) : formatHex width n ≠ [] := by
  intro empty
  have digits := (List.append_eq_nil_iff.mp empty).2
  exact absurd digits (by simp [Nat.toDigits_ne_nil])

theorem isDigit_formatHex (width n : Nat) : ∀ b ∈ formatHex width n, isDigit 16 b = true := by
  intro b member
  cases List.mem_append.mp member with
  | inl zero =>
      rw [List.eq_of_mem_replicate zero]
      decide
  | inr digit => exact isDigit_toDigits (by omega) (by omega) n b digit

theorem numeral_formatHex (width n : Nat) : numeral 16 (formatHex width n) = n := by
  show numeral 16 (List.replicate _ (byte '0') ++ (Nat.toDigits 16 n).map byte) = n
  rw [numeral_zeros, numeral_toDigits (by omega) (by omega)]

end RadeonsiCompute.Lib
