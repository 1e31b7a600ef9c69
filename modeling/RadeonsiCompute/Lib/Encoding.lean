import RadeonsiCompute.Lib.BitField
import Mathlib.Data.List.Forall2

/-!
# Instruction encodings

An instruction takes one word or more. Its format marks the first word in some
bits and keeps the opcode in others, and the opcode decides where the operands
stand. An operand can be a source, and a source with the escape value says that
one literal follows. Marks overlap: a decoder tries the formats in a fixed order
and takes the first that marks the word.

What an instruction writes is read back if no format tried before its own can
be taken for it, and a program is then framed as it was written.
-/

namespace RadeonsiCompute.Lib

variable {w : Nat}

namespace Field

variable {f g : Field w} {x : BitVec w}

theorem set_of_holds (holds : f.Holds x) : f.set x = x <<< f.off := by
  rw [set, holds]

/-- A value that fits a field, shifted into it, is read back. -/
theorem get_shift (holds : f.Holds x) : f.get (x <<< f.off) = x := by
  rw [← set_of_holds holds]
  exact get_set_of_holds holds

theorem get_shift_of_apart (apart : f.Apart g) (holds : g.Holds x) :
    f.get (x <<< g.off) = 0#w := by
  rw [← set_of_holds holds]
  exact get_set_of_apart apart x

/-- A field put back where it was read from. -/
theorem set_get (word : BitVec w) : f.set (f.get word) = word &&& f.cells := by
  apply BitVec.eq_of_getLsbD_eq
  intro i hi
  simp only [set, get, cells, BitVec.getLsbD_shiftLeft, BitVec.getLsbD_and,
    BitVec.getLsbD_ushiftRight]
  by_cases before : i < f.off
  · simp [before]
  · have back : f.off + (i - f.off) = i := by omega
    simp [before, hi, back]

/-- A word that its fields fill is put together from what they read. -/
theorem pack_get (fields : List (Field w)) (word : BitVec w)
    (fill : fields.foldr (fun f rest => f.cells ||| rest) 0#w = BitVec.allOnes w) :
    pack (fields.map fun f => (f, f.get word)) = word := by
  have cut : ∀ fields : List (Field w), pack (fields.map fun f => (f, f.get word)) =
      word &&& fields.foldr (fun f rest => f.cells ||| rest) 0#w := by
    intro fields
    induction fields with
    | nil => exact BitVec.and_zero.symm
    | cons f fields ih =>
        rw [List.map_cons, pack_cons, ih, set_get, List.foldr_cons, BitVec.and_or_distrib_left]
  rw [cut, fill, BitVec.and_allOnes]

/-- What is read from a field fits it. -/
theorem holds_get (word : BitVec w) : f.Holds (f.get word) := by
  rw [Holds, get, BitVec.and_assoc, BitVec.and_self]

theorem set_and_mask : f.set (x &&& f.mask) = f.set x := by
  rw [set, set, BitVec.and_assoc, BitVec.and_self]

theorem set_and_cells : f.set x &&& f.cells = f.set x := by
  rw [← set_get, get_set, set_and_mask]

theorem shift_and_not_cells (holds : f.Holds x) : x <<< f.off &&& ~~~f.cells = 0#w := by
  rw [← set_of_holds holds, ← set_and_cells, BitVec.and_assoc]
  simp

theorem set_and_cells_of_apart (apart : f.Apart g) : g.set x &&& f.cells = 0#w := by
  rw [← set_get, get_set_of_apart apart, set, BitVec.zero_and, BitVec.zero_shiftLeft]

end Field

/-- With associativity and commutativity it puts a chain of `or`s in order. -/
theorem bitVec_or_left_comm (a b c : BitVec w) : a ||| (b ||| c) = b ||| (a ||| c) := by
  rw [← BitVec.or_assoc, BitVec.or_comm a b, BitVec.or_assoc]

/-! ## Operands -/

/-- Where an operand stands, and whether it can ask for a literal. -/
structure Slot (w : Nat) where
  field : Field w
  source : Bool

namespace Slot

def read (slots : List (Slot w)) (word : BitVec w) : List (BitVec w) :=
  slots.map fun slot => slot.field.get word

def fields (slots : List (Slot w)) (values : List (BitVec w)) : List (Field w × BitVec w) :=
  (slots.map Slot.field).zip values

/-- The operands that can ask for a literal. -/
def sources (slots : List (Slot w)) (values : List (BitVec w)) : List (BitVec w) :=
  ((slots.zip values).filter fun p => p.1.source).map Prod.snd

/-- One operand for each slot, and each within the width of its field. -/
abbrev Fits : List (Slot w) → List (BitVec w) → Prop :=
  List.Forall₂ fun slot value => slot.field.Holds value

theorem map_fst_fields {slots : List (Slot w)} {values : List (BitVec w)}
    (fits : Fits slots values) : (fields slots values).map Prod.fst = slots.map Slot.field := by
  apply List.map_fst_zip
  rw [List.length_map, fits.length_eq]

/-- The operands of a word stand where they were packed. -/
theorem read_eq {slots : List (Slot w)} {values : List (BitVec w)} {word : BitVec w}
    (fits : Fits slots values)
    (packed : ∀ p ∈ fields slots values, p.1.get word = p.2 &&& p.1.mask) :
    read slots word = values := by
  induction fits with
  | nil => rfl
  | @cons slot value slots values holds fits ih =>
      have here := packed (slot.field, value) List.mem_cons_self
      have later := ih fun p member => packed p (List.mem_cons_of_mem _ member)
      show slot.field.get word :: read slots word = value :: values
      rw [here, holds, later]

theorem read_pack {slots : List (Slot w)} {values : List (BitVec w)}
    (apart : (slots.map Slot.field).Pairwise Field.Apart) (fits : Fits slots values) :
    read slots (Field.pack (fields slots values)) = values := by
  apply read_eq fits
  apply Field.get_pack
  rw [Field.AllApart, map_fst_fields fits]
  exact apart

/-- Operands that fit are shifted to where they stand. -/
theorem pack_eq {slots : List (Slot w)} {values : List (BitVec w)} (fits : Fits slots values) :
    Field.pack (fields slots values) =
      (slots.zip values).foldr (fun p word => p.2 <<< p.1.field.off ||| word) 0#w := by
  induction fits with
  | nil => rfl
  | @cons slot value slots values holds fits ih =>
      show slot.field.set value ||| Field.pack (fields slots values) = _
      rw [ih, Field.set_of_holds holds]
      rfl

end Slot

/-! ## Formats -/

/-- A format. In each of its words no two fields share a bit. -/
structure Format (w : Nat) where
  mark : Field w
  code : BitVec w
  op : Field w
  slots : BitVec w → List (Slot w)
  more : BitVec w → List (List (Slot w)) := fun _ => []
  holds : mark.Holds code := by decide
  apart : ∀ o, (mark :: op :: (slots o).map Slot.field).Pairwise Field.Apart := by intro _; decide
  apart_more : ∀ o, ∀ slots ∈ more o, (slots.map Slot.field).Pairwise Field.Apart := by
    intro _; decide

namespace Format

/-- The word carries the format's mark. -/
def Marks (f : Format w) (word : BitVec w) : Prop := f.mark.get word = f.code

instance (f : Format w) (word : BitVec w) : Decidable (f.Marks word) :=
  inferInstanceAs (Decidable (_ = _))

def firstWord (f : Format w) (o : BitVec w) (operands : List (BitVec w)) : BitVec w :=
  Field.pack ((f.mark, f.code) :: (f.op, o) :: Slot.fields (f.slots o) operands)

/-- The bits that a mark and an opcode fix do not tell the word from one with `g`'s mark. -/
def Clash (f : Format w) (o : BitVec w) (g : Format w) : Prop :=
  (f.mark.set f.code ||| f.op.set o) &&& g.mark.cells =
    g.mark.set g.code &&& (f.mark.cells ||| f.op.cells)

instance (f : Format w) (o : BitVec w) (g : Format w) : Decidable (f.Clash o g) :=
  inferInstanceAs (Decidable (_ = _))

section FirstWord

variable {f g : Format w} {o : BitVec w} {operands : List (BitVec w)}

theorem firstWord_eq (fits : Slot.Fits (f.slots o) operands) (holds : f.op.Holds o) :
    f.firstWord o operands = f.mark.set f.code ||| (o <<< f.op.off |||
      ((f.slots o).zip operands).foldr (fun p word => p.2 <<< p.1.field.off ||| word) 0#w) := by
  rw [firstWord, Field.pack_cons, Field.pack_cons, Field.set_of_holds holds, Slot.pack_eq fits]

/-- Every field of the first word reads its own value. -/
theorem get_firstWord (fits : Slot.Fits (f.slots o) operands) :
    ∀ p ∈ (f.mark, f.code) :: (f.op, o) :: Slot.fields (f.slots o) operands,
      p.1.get (f.firstWord o operands) = p.2 &&& p.1.mask := by
  apply Field.get_pack
  rw [Field.AllApart, List.map_cons, List.map_cons, Slot.map_fst_fields fits]
  exact f.apart o

theorem marks_firstWord (fits : Slot.Fits (f.slots o) operands) :
    f.Marks (f.firstWord o operands) :=
  (get_firstWord fits (f.mark, f.code) (by simp)).trans f.holds

theorem op_firstWord (fits : Slot.Fits (f.slots o) operands) (holds : f.op.Holds o) :
    f.op.get (f.firstWord o operands) = o :=
  (get_firstWord fits (f.op, o) (by simp)).trans holds

theorem read_firstWord (fits : Slot.Fits (f.slots o) operands) :
    Slot.read (f.slots o) (f.firstWord o operands) = operands := by
  apply Slot.read_eq fits
  intro p member
  exact get_firstWord fits p (List.mem_cons_of_mem _ (List.mem_cons_of_mem _ member))

/-- The bits of the first word that do not depend on the operands. -/
theorem fixed_firstWord (fits : Slot.Fits (f.slots o) operands) :
    f.firstWord o operands &&& (f.mark.cells ||| f.op.cells) =
      f.mark.set f.code ||| f.op.set o := by
  have mark := get_firstWord fits (f.mark, f.code) (by simp)
  have op := get_firstWord fits (f.op, o) (by simp)
  rw [BitVec.and_or_distrib_left, ← Field.set_get, ← Field.set_get, mark, op,
    Field.set_and_mask, Field.set_and_mask]

/-- A word is not taken for one of a format it does not clash with. -/
theorem not_marks_firstWord (fits : Slot.Fits (f.slots o) operands) (clear : ¬ f.Clash o g) :
    ¬ g.Marks (f.firstWord o operands) := by
  intro marks
  apply clear
  have there : f.firstWord o operands &&& g.mark.cells = g.mark.set g.code := by
    rw [← Field.set_get, marks]
  rw [Clash, ← fixed_firstWord fits, ← there]
  ac_rfl

/-- Marks that differ in a bit they share are enough, whatever the opcode is. -/
theorem not_clash_of_mark
    (differ : f.mark.set f.code &&& g.mark.cells ≠ g.mark.set g.code &&& f.mark.cells)
    (o : BitVec w) : ¬ f.Clash o g := by
  intro clash
  apply differ
  have apart : f.mark.Apart f.op := (List.pairwise_cons.mp (f.apart o)).1 f.op List.mem_cons_self
  calc f.mark.set f.code &&& g.mark.cells
      = ((f.mark.set f.code ||| f.op.set o) &&& f.mark.cells) &&& g.mark.cells := by
        rw [BitVec.and_or_distrib_right, Field.set_and_cells, Field.set_and_cells_of_apart apart,
          BitVec.or_zero]
    _ = ((f.mark.set f.code ||| f.op.set o) &&& g.mark.cells) &&& f.mark.cells := by ac_rfl
    _ = g.mark.set g.code &&& ((f.mark.cells ||| f.op.cells) &&& f.mark.cells) := by
        rw [clash, BitVec.and_assoc]
    _ = g.mark.set g.code &&& f.mark.cells := by
        have op : f.op.cells &&& f.mark.cells = 0#w := apart.symm
        rw [BitVec.and_or_distrib_right, BitVec.and_self, op, BitVec.or_zero]

end FirstWord

end Format

/-! ## Instructions -/

/-- An instruction: its format's name, its opcode, its operands word by word, and the literal. -/
structure Instr (F : Type) (w : Nat) where
  format : F
  op : BitVec w
  operands : List (BitVec w)
  more : List (List (BitVec w))
  literal : Option (BitVec w)
  deriving DecidableEq, Repr

/-- An instruction set: the formats, the order a decoder tries them in, and the escape value. -/
structure Isa (F : Type) (w : Nat) where
  format : F → Format w
  order : List F
  escape : BitVec w

namespace Isa

variable {F : Type} (isa : Isa F w)

/-- The operands of an instruction that can ask for a literal. -/
def sources (i : Instr F w) : List (BitVec w) :=
  Slot.sources ((isa.format i.format).slots i.op) i.operands ++
    (List.zipWith Slot.sources ((isa.format i.format).more i.op) i.more).flatten

/-- The words after the first that hold operands. -/
def moreWords (slots : List (List (Slot w))) (values : List (List (BitVec w))) :
    List (BitVec w) :=
  List.zipWith (fun slots values => Field.pack (Slot.fields slots values)) slots values

def encode (i : Instr F w) : List (BitVec w) :=
  (isa.format i.format).firstWord i.op i.operands ::
    moreWords ((isa.format i.format).more i.op) i.more ++ i.literal.toList

/-- The instruction without its literal, read from its first word and the stream behind it. -/
def readInstr (name : F) (word : BitVec w) (stream : List (BitVec w)) : Instr F w :=
  let f := isa.format name
  let o := f.op.get word
  { format := name
    op := o
    operands := Slot.read (f.slots o) word
    more := List.zipWith Slot.read (f.more o) stream
    literal := none }

/-- How many words stand between the first one and the literal. -/
def extra (i : Instr F w) : Nat := ((isa.format i.format).more i.op).length

/-- Take the literal off the stream, if a source asks for one. -/
def takeLiteral (i : Instr F w) (stream : List (BitVec w)) :
    Option (Instr F w × List (BitVec w)) :=
  if isa.escape ∈ isa.sources i then
    match stream with
    | [] => none
    | value :: rest => some ({ i with literal := some value }, rest)
  else some (i, stream)

/-- Read one instruction, and what is left of the stream. -/
def decodeOne : List (BitVec w) → Option (Instr F w × List (BitVec w))
  | [] => none
  | word :: stream => do
      let name ← isa.order.find? fun name => (isa.format name).Marks word
      let i := isa.readInstr name word stream
      guard (isa.extra i ≤ stream.length)
      isa.takeLiteral i (stream.drop (isa.extra i))

theorem takeLiteral_length {i j : Instr F w} {stream rest : List (BitVec w)}
    (taken : isa.takeLiteral i stream = some (j, rest)) : rest.length ≤ stream.length := by
  unfold takeLiteral at taken
  split at taken
  · cases stream with
    | nil => exact absurd taken (by simp)
    | cons value later =>
        obtain ⟨-, rfl⟩ := Prod.mk.inj (Option.some.inj taken)
        exact Nat.le_succ _
  · obtain ⟨-, rfl⟩ := Prod.mk.inj (Option.some.inj taken)
    exact Nat.le_refl _

/-- Reading an instruction uses up some of the stream. -/
theorem decodeOne_length {stream rest : List (BitVec w)} {i : Instr F w}
    (read : isa.decodeOne stream = some (i, rest)) : rest.length < stream.length := by
  cases stream with
  | nil => exact absurd read (by simp [decodeOne])
  | cons word stream =>
      obtain ⟨name, -, read⟩ := Option.bind_eq_some_iff.mp read
      obtain ⟨-, -, taken⟩ := Option.bind_eq_some_iff.mp read
      have left := isa.takeLiteral_length taken
      rw [List.length_drop] at left
      rw [List.length_cons]
      omega

/-- Read a stream as instructions. It must end where an instruction ends. -/
def decode (stream : List (BitVec w)) : Option (List (Instr F w)) :=
  if stream = [] then some []
  else
    match _read : isa.decodeOne stream with
    | none => none
    | some (i, rest) => (decode rest).map (i :: ·)
  termination_by stream.length
  decreasing_by exact isa.decodeOne_length _read

/-! ## The round trip -/

/-- No format tried before the named one can be taken for it. -/
def Clear [DecidableEq F] (name : F) (o : BitVec w) : Prop :=
  name ∈ isa.order ∧
    ∀ g ∈ isa.order.takeWhile (· ≠ name), ¬ (isa.format name).Clash o (isa.format g)

/-- An instruction its words tell apart. It has a literal if a source asks for one. -/
structure Legal [DecidableEq F] (i : Instr F w) : Prop where
  clear : isa.Clear i.format i.op
  holds : (isa.format i.format).op.Holds i.op
  fits : Slot.Fits ((isa.format i.format).slots i.op) i.operands
  fits_more : List.Forall₂ Slot.Fits ((isa.format i.format).more i.op) i.more
  asks : i.literal.isSome ↔ isa.escape ∈ isa.sources i

theorem length_moreWords {slots : List (List (Slot w))} {values : List (List (BitVec w))}
    (fits : List.Forall₂ Slot.Fits slots values) :
    (moreWords slots values).length = slots.length := by
  rw [moreWords, List.length_zipWith, fits.length_eq, Nat.min_self]

/-- The words after the first are read back, whatever follows them. -/
theorem read_moreWords {slots : List (List (Slot w))} {values : List (List (BitVec w))}
    (apart : ∀ s ∈ slots, (s.map Slot.field).Pairwise Field.Apart)
    (fits : List.Forall₂ Slot.Fits slots values) (rest : List (BitVec w)) :
    List.zipWith Slot.read slots (moreWords slots values ++ rest) = values := by
  induction fits with
  | nil => rfl
  | @cons s v slots values here later ih =>
      rw [List.forall_mem_cons] at apart
      show Slot.read s (Field.pack (Slot.fields s v)) ::
        List.zipWith Slot.read slots (moreWords slots values ++ rest) = v :: values
      rw [Slot.read_pack apart.1 here, ih apart.2]

section RoundTrip

variable {isa} [DecidableEq F] {i : Instr F w}

/-- The format tried first among those that mark a word. -/
theorem find_of_takeWhile {name : F} {p : F → Bool} {order : List F} (listed : name ∈ order)
    (marks : p name = true) (before : ∀ g ∈ order.takeWhile (· ≠ name), ¬ p g = true) :
    order.find? p = some name := by
  induction order with
  | nil => exact absurd listed (by simp)
  | cons g order ih =>
      by_cases same : g = name
      · subst same
        rw [List.find?_cons_of_pos marks]
      · rw [List.takeWhile_cons_of_pos (by simpa using same), List.forall_mem_cons] at before
        rw [List.find?_cons_of_neg before.1]
        exact ih ((List.mem_cons.mp listed).resolve_left (Ne.symm same)) before.2

/-- The format of an instruction is told from its first word. -/
theorem find_encode (legal : isa.Legal i) :
    isa.order.find? (fun name => decide ((isa.format name).Marks
      ((isa.format i.format).firstWord i.op i.operands))) = some i.format := by
  apply find_of_takeWhile legal.clear.1
  · exact decide_eq_true (Format.marks_firstWord legal.fits)
  · intro g before marked
    exact Format.not_marks_firstWord legal.fits (legal.clear.2 g before) (of_decide_eq_true marked)

/-- All but the literal is read from the words. -/
theorem readInstr_encode (legal : isa.Legal i) (rest : List (BitVec w)) :
    isa.readInstr i.format ((isa.format i.format).firstWord i.op i.operands)
      (moreWords ((isa.format i.format).more i.op) i.more ++ rest) =
        { i with literal := none } := by
  have op := Format.op_firstWord legal.fits legal.holds
  have operands := Format.read_firstWord legal.fits
  have more := read_moreWords ((isa.format i.format).apart_more i.op) legal.fits_more rest
  simp only [readInstr, op, operands, more]

/-- The literal is taken if there is one. -/
theorem takeLiteral_encode (legal : isa.Legal i) (rest : List (BitVec w)) :
    isa.takeLiteral { i with literal := none } (i.literal.toList ++ rest) = some (i, rest) := by
  have asks : i.literal.isSome ↔ isa.escape ∈ isa.sources { i with literal := none } := legal.asks
  obtain ⟨format, op, operands, more, literal⟩ := i
  unfold takeLiteral
  cases literal with
  | none =>
      rw [if_neg fun asked => absurd (asks.mpr asked) (by simp)]
      rfl
  | some value =>
      rw [if_pos (asks.mp rfl)]
      rfl

/-- An instruction is read back, and what follows it is left. -/
theorem decodeOne_encode (legal : isa.Legal i) (rest : List (BitVec w)) :
    isa.decodeOne (isa.encode i ++ rest) = some (i, rest) := by
  have found := find_encode legal
  have read := readInstr_encode legal (i.literal.toList ++ rest)
  have length : isa.extra { i with literal := none } =
      (moreWords ((isa.format i.format).more i.op) i.more).length :=
    (length_moreWords legal.fits_more).symm
  have stream : isa.encode i ++ rest =
      (isa.format i.format).firstWord i.op i.operands ::
        (moreWords ((isa.format i.format).more i.op) i.more ++ (i.literal.toList ++ rest)) := by
    rw [encode, List.cons_append, List.cons_append, List.append_assoc]
  have room : isa.extra { i with literal := none } ≤
      (moreWords ((isa.format i.format).more i.op) i.more ++ (i.literal.toList ++ rest)).length := by
    rw [List.length_append, length]
    exact Nat.le_add_right _ _
  rw [stream, decodeOne, found, Option.bind_eq_bind, Option.bind_some]
  dsimp only
  rw [read, guard, if_pos room, length, List.drop_left]
  exact takeLiteral_encode legal rest

theorem decode_cons (legal : isa.Legal i) (rest : List (BitVec w)) :
    isa.decode (isa.encode i ++ rest) = (isa.decode rest).map (i :: ·) := by
  have more : isa.encode i ++ rest ≠ [] := by
    rw [encode, List.cons_append, List.cons_append]
    exact List.cons_ne_nil _ _
  rw [decode, if_neg more]
  split
  · next failed => exact absurd (failed.symm.trans (decodeOne_encode legal rest)) (by simp)
  · next j later read =>
      obtain ⟨rfl, rfl⟩ :=
        Prod.mk.inj (Option.some.inj (read.symm.trans (decodeOne_encode legal rest)))
      rfl

/-- A program is framed and read as it was written, to its end. -/
theorem decode_encode (is : List (Instr F w)) (legal : ∀ i ∈ is, isa.Legal i) :
    isa.decode (is.flatMap isa.encode) = some is := by
  induction is with
  | nil => rw [List.flatMap_nil, decode, if_pos rfl]
  | cons i is ih =>
      rw [List.forall_mem_cons] at legal
      rw [List.flatMap_cons, decode_cons legal.1, ih legal.2, Option.map_some]

end RoundTrip

/-! ## Listings -/

/-- The words are those of the instructions, and a decoder can tell them. -/
structure Lists [DecidableEq F] (words : List (BitVec w)) (is : List (Instr F w)) : Prop where
  legal : ∀ i ∈ is, isa.Legal i
  encoded : words = is.flatMap isa.encode

/-- An instruction starts at index `k` of the program, or the program ends there. -/
def Starts (is : List (Instr F w)) (k : Nat) : Prop :=
  ∃ before after, is = before ++ after ∧ (before.flatMap isa.encode).length = k

section Listings

variable {isa} [DecidableEq F] {words words' : List (BitVec w)} {is is' : List (Instr F w)}

theorem Lists.append (first : isa.Lists words is) (second : isa.Lists words' is') :
    isa.Lists (words ++ words') (is ++ is') where
  legal := by
    rw [List.forall_mem_append]
    exact ⟨first.legal, second.legal⟩
  encoded := by rw [first.encoded, second.encoded, List.flatMap_append]

/-- Instructions that are written `n` times over. -/
theorem Lists.replicate (lists : isa.Lists words is) (n : Nat) :
    isa.Lists (List.replicate n words).flatten (List.replicate n is).flatten := by
  induction n with
  | zero => exact ⟨fun _ none => absurd none List.not_mem_nil, rfl⟩
  | succ n ih => exact lists.append ih

/-- A listing is what a decoder makes of the words. -/
theorem Lists.decode (lists : isa.Lists words is) : isa.decode words = some is := by
  rw [lists.encoded]
  exact decode_encode is lists.legal

omit [DecidableEq F] in
/-- None starts behind the first word of an instruction and before its end. -/
theorem not_starts_inside {i : Instr F w} {before after : List (Instr F w)} {k : Nat}
    (low : (before.flatMap isa.encode).length < k)
    (high : k < (before.flatMap isa.encode).length + (isa.encode i).length) :
    ¬ isa.Starts (before ++ i :: after) k := by
  rintro ⟨front, back, split, rfl⟩
  cases List.append_eq_append_iff.mp split with
  | inl longer =>
      obtain ⟨more, rfl, rest⟩ := longer
      rw [List.flatMap_append, List.length_append] at low high
      cases more with
      | nil => simp at low
      | cons j more =>
          obtain ⟨rfl, -⟩ := List.cons.inj rest
          rw [List.flatMap_cons, List.length_append] at high
          omega
  | inr shorter =>
      obtain ⟨less, rfl, -⟩ := shorter
      rw [List.flatMap_append, List.length_append] at low
      omega

omit [DecidableEq F] in
/-- Behind the first word of an instruction the next one starts, if it has no other. -/
theorem starts_next_iff {i : Instr F w} {before after : List (Instr F w)} :
    isa.Starts (before ++ i :: after) ((before.flatMap isa.encode).length + 1) ↔
      (isa.encode i).length = 1 := by
  constructor
  · intro starts
    by_contra longer
    have some : (isa.encode i).length ≠ 0 := by simp [encode]
    exact not_starts_inside (by omega) (by omega) starts
  · intro one
    refine ⟨before ++ [i], after, by simp, ?_⟩
    simp [one]

end Listings

end Isa

end RadeonsiCompute.Lib
