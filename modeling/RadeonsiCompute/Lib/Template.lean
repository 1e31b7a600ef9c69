import RadeonsiCompute.Lib.Scan

/-!
# Templates of text and numbers

A `printf` format whose only conversion is `%u`, and the reader that goes by the
same format. What is written is read back (`parse_render`) if no number is
followed by something that could be taken for its next digit.
-/

namespace RadeonsiCompute.Lib

inductive Piece
  | plain (s : List Byte)
  | number
  deriving DecidableEq, Repr

abbrev Template := List Piece

namespace Template

/-- `printf`. -/
def render : Template → List Nat → List Byte
  | [], _ => []
  | .plain s :: format, ns => s ++ render format ns
  | .number :: format, n :: ns => decimal n ++ render format ns
  | .number :: format, [] => render format []

/-- The numbers in a text that was written in the format. -/
def parse : Template → List Byte → Option (List Nat)
  | [], s => if s = [] then some [] else none
  | .plain t :: format, s => if t <+: s then parse format (s.drop t.length) else none
  | .number :: format, s =>
      (scanDigits 10 s).bind fun p => (parse format p.2).map (p.1 :: ·)

/-- How many numbers it takes. -/
def arity : Template → Nat
  | [] => 0
  | .plain _ :: format => arity format
  | .number :: format => arity format + 1

/-- The length of its text. -/
def textLength : Template → Nat
  | [] => 0
  | .plain s :: format => s.length + textLength format
  | .number :: format => textLength format

/-- The format ends here, or goes on with text that is no digit. -/
def Stops : Template → Prop
  | [] => True
  | .plain (b :: _) :: _ => isDigit 10 b = false
  | _ => False

instance : DecidablePred Stops
  | [] => inferInstanceAs (Decidable True)
  | .plain [] :: _ => inferInstanceAs (Decidable False)
  | .plain (_ :: _) :: _ => inferInstanceAs (Decidable (_ = _))
  | .number :: _ => inferInstanceAs (Decidable False)

/-- No number runs into what follows it. -/
def Separated : Template → Prop
  | [] => True
  | .plain _ :: format => Separated format
  | .number :: format => Stops format ∧ Separated format

instance separatedDecidable : DecidablePred Separated
  | [] => inferInstanceAs (Decidable True)
  | .plain _ :: format => separatedDecidable format
  | .number :: format =>
      have := separatedDecidable format
      inferInstanceAs (Decidable (_ ∧ _))

variable {format : Template} {ns : List Nat}

theorem Stops.not_digit (stops : Stops format) (ns : List Nat) :
    ∀ b ∈ (render format ns).head?, isDigit 10 b = false := by
  intro b first
  cases format with
  | nil => cases first
  | cons piece format =>
      cases piece with
      | number => exact absurd stops id
      | plain s =>
          cases s with
          | nil => exact absurd stops id
          | cons c s =>
              cases first
              exact stops

/-- **Round trip.** The reader gets back the numbers that were written. -/
theorem parse_render (separated : Separated format) :
    ∀ {ns : List Nat}, ns.length = arity format → parse format (render format ns) = some ns := by
  induction format with
  | nil =>
      intro ns none
      obtain rfl := List.eq_nil_of_length_eq_zero none
      rfl
  | cons piece format ih =>
      intro ns enough
      cases piece with
      | plain s =>
          have rest := ih separated enough
          simp only [render, parse, List.prefix_append, if_true, List.drop_left, rest]
      | number =>
          cases ns with
          | nil => cases enough
          | cons n ns =>
              have rest := ih separated.2 (Nat.succ.inj enough)
              have digits := scanDigits_digits (decimal_ne_nil n) (isDigit_decimal n)
                (separated.1.not_digit ns)
              rw [render, parse, digits, numeral_decimal]
              simp only [Option.bind_some, rest, Option.map_some]

/-- Numbers of `k` digits at most. -/
theorem length_render_le {k : Nat} (positive : 0 < k) :
    ∀ {ns : List Nat}, (∀ n ∈ ns, n < 10 ^ k) →
      (render format ns).length ≤ textLength format + k * arity format := by
  induction format with
  | nil => intro ns _; exact Nat.zero_le _
  | cons piece format ih =>
      intro ns small
      cases piece with
      | plain s =>
          have rest := ih small
          rw [render, textLength, arity, List.length_append]
          omega
      | number =>
          rw [textLength, arity, Nat.mul_succ]
          cases ns with
          | nil =>
              have rest := ih (List.forall_mem_nil _)
              rw [render]
              omega
          | cons n ns =>
              rw [List.forall_mem_cons] at small
              have rest := ih small.2
              have first := length_decimal_le positive small.1
              rw [render, List.length_append]
              omega

end Template

end RadeonsiCompute.Lib
