import RadeonsiCompute.Lib.Refinement
import Mathlib.Computability.Language
import Mathlib.Tactic.Common

/-!
# What runs are labelled with

The labels of a run as a word. From one assertion to another the runs of a
system spell the words of a language: no run leaves the language, and none is
stuck before a word is complete. Languages are put together as the parts of a
program are: one after the other, one or the other, and over again.
-/

namespace RadeonsiCompute.Lib.TSys

variable {σ ι : Type}

/-- Every run from `P` is labelled with a part of a word of `L` and can go on, or with a whole
word, and then it has come to `Q`. -/
structure Spells (sys : TSys σ ι) (P : σ → Prop) (L : Language ι) (Q : σ → Prop) : Prop where
  inhabited : ∃ word, word ∈ L
  runs : ∀ s is s', P s → sys.Run s is s' →
    (∃ more, more ≠ [] ∧ is ++ more ∈ L ∧ ∃ i s'', sys.step s' i s'') ∨
      ∃ word rest s₁, is = word ++ rest ∧ word ∈ L ∧ sys.Run s word s₁ ∧ Q s₁ ∧
        sys.Run s₁ rest s'

namespace Spells

variable {sys : TSys σ ι} {P P' Q Q' R : σ → Prop} {L M : Language ι}

theorem nil : sys.Spells P 1 P where
  inhabited := ⟨[], Language.nil_mem_one⟩
  runs s is _ start run := .inr ⟨[], is, s, rfl, Language.nil_mem_one, .nil, start, run⟩

/-- One step, where only one label is possible. -/
theorem single {i : ι} (can : ∀ s, P s → ∃ s', sys.step s i s')
    (does : ∀ s j s', P s → sys.step s j s' → j = i ∧ Q s') : sys.Spells P {[i]} Q where
  inhabited := ⟨[i], rfl⟩
  runs s is s' start run := by
    cases run with
    | nil =>
        obtain ⟨s'', step⟩ := can s start
        exact .inl ⟨[i], by simp, rfl, i, s'', step⟩
    | @cons _ j s₁ rest _ step run =>
        obtain ⟨rfl, next⟩ := does s j s₁ start step
        exact .inr ⟨[j], rest, s₁, rfl, rfl, .single step, next, run⟩

/-- One part after the other. -/
theorem append (first : sys.Spells P L Q) (second : sys.Spells Q M R) :
    sys.Spells P (L * M) R where
  inhabited := by
    obtain ⟨word, inL⟩ := first.inhabited
    obtain ⟨word', inM⟩ := second.inhabited
    exact ⟨word ++ word', Language.append_mem_mul inL inM⟩
  runs s is s' start run := by
    rcases first.runs s is s' start run with ⟨more, some, inL, step⟩ | ⟨word, rest, s₁, rfl, inL,
      here, mid, run⟩
    · obtain ⟨word', inM⟩ := second.inhabited
      refine .inl ⟨more ++ word', by simp [some], ?_, step⟩
      rw [← List.append_assoc]
      exact Language.append_mem_mul inL inM
    · rcases second.runs s₁ rest s' mid run with ⟨more, some, inM, step⟩ | ⟨word', rest, s₂, rfl,
        inM, there, last, run⟩
      · refine .inl ⟨more, some, ?_, step⟩
        rw [List.append_assoc]
        exact Language.append_mem_mul inL inM
      · exact .inr ⟨word ++ word', rest, s₂, (List.append_assoc ..).symm,
          Language.append_mem_mul inL inM, here.append there, last, run⟩

/-- One part or the other. -/
theorem or (first : sys.Spells P L R) (second : sys.Spells Q M R) :
    sys.Spells (fun s => P s ∨ Q s) (L + M) R where
  inhabited := by
    obtain ⟨word, inL⟩ := first.inhabited
    exact ⟨word, .inl inL⟩
  runs s is s' start run := by
    rcases start with start | start
    · rcases first.runs s is s' start run with ⟨more, some, inL, step⟩ | ⟨word, rest, s₁, cut, inL,
        last⟩
      · exact .inl ⟨more, some, .inl inL, step⟩
      · exact .inr ⟨word, rest, s₁, cut, .inl inL, last⟩
    · rcases second.runs s is s' start run with ⟨more, some, inM, step⟩ | ⟨word, rest, s₁, cut,
        inM, last⟩
      · exact .inl ⟨more, some, .inr inM, step⟩
      · exact .inr ⟨word, rest, s₁, cut, .inr inM, last⟩

theorem mono (spells : sys.Spells P L Q) (before : ∀ s, P' s → P s) (after : ∀ s, Q s → Q' s) :
    sys.Spells P' L Q' where
  inhabited := spells.inhabited
  runs s is s' start run := by
    rcases spells.runs s is s' (before s start) run with part | ⟨word, rest, s₁, cut, inL, here,
      last, run⟩
    · exact .inl part
    · exact .inr ⟨word, rest, s₁, cut, inL, here, after s₁ last, run⟩

theorem singleton_mul (word word' : List ι) :
    ({word} : Language ι) * {word'} = {word ++ word'} := by
  ext x
  rw [Language.mem_mul]
  constructor
  · rintro ⟨_, rfl, _, rfl, rfl⟩
    rfl
  · rintro rfl
    exact ⟨word, rfl, word', rfl, rfl⟩

/-- One word after the other. -/
theorem words {word word' : List ι} (first : sys.Spells P {word} Q)
    (second : sys.Spells Q {word'} R) : sys.Spells P {word ++ word'} R := by
  rw [← singleton_mul]
  exact first.append second

/-- The same word over again. -/
theorem replicate {P : Nat → σ → Prop} {word : List ι} {n : Nat}
    (each : ∀ k < n, sys.Spells (P k) {word} (P (k + 1))) :
    sys.Spells (P 0) {(List.replicate n word).flatten} (P n) := by
  induction n with
  | zero => exact nil
  | succ n ih =>
      rw [List.replicate_succ', List.flatten_append, List.flatten_singleton]
      exact (ih fun k below => each k (Nat.lt_succ_of_lt below)).words
        (each n (Nat.lt_succ_self n))

/-- If `Q` is the end, a run is a part of a word and can go on, or a whole word and at the end. -/
theorem exact (spells : sys.Spells P L Q) (stuck : ∀ s i s', Q s → ¬ sys.step s i s')
    {s s' : σ} {is : List ι} (start : P s) (run : sys.Run s is s') :
    ∃ word ∈ L, is <+: word ∧
      (is ≠ word ∧ (∃ i s'', sys.step s' i s'') ∨ is = word ∧ Q s') := by
  rcases spells.runs s is s' start run with ⟨more, some, inL, step⟩ | ⟨word, rest, s₁, rfl, inL,
    -, last, run⟩
  · refine ⟨is ++ more, inL, List.prefix_append is more, .inl ⟨fun whole => some ?_, step⟩⟩
    simpa using whole
  · cases run with
    | nil => exact ⟨word, inL, by simp, .inr ⟨by simp, last⟩⟩
    | cons step _ => exact absurd step (stuck _ _ _ last)

/-- If the words are bounded, some run comes to the end. -/
theorem completes (spells : sys.Spells P L Q) {bound : Nat}
    (short : ∀ word ∈ L, word.length ≤ bound) {s : σ} (start : P s) :
    ∃ word ∈ L, ∃ s', sys.Run s word s' ∧ Q s' := by
  -- a run that is not complete yet is made longer
  have longer : ∀ m is s', is.length + m = bound + 1 → sys.Run s is s' →
      ∃ word ∈ L, ∃ s', sys.Run s word s' ∧ Q s' := by
    intro m
    induction m with
    | zero =>
        intro is s' full run
        rcases spells.runs s is s' start run with ⟨more, -, inL, -⟩ | ⟨word, rest, s₁, -, inL,
          first, last, -⟩
        · have := short _ inL
          rw [List.length_append] at this
          omega
        · exact ⟨word, inL, s₁, first, last⟩
    | succ m ih =>
        intro is s' left run
        rcases spells.runs s is s' start run with ⟨-, -, -, i, s'', step⟩ | ⟨word, rest, s₁, -, inL,
          first, last, -⟩
        · refine ih (is ++ [i]) s'' ?_ (run.append (.single step))
          rw [List.length_append, List.length_singleton]
          omega
        · exact ⟨word, inL, s₁, first, last⟩
  exact longer (bound + 1) [] s (Nat.zero_add _) .nil

/-- If there is only one word, every run is a part of it, and some run is all of it. -/
theorem of_word {word : List ι} (spells : sys.Spells P {word} Q)
    (stuck : ∀ s i s', Q s → ¬ sys.step s i s') {s : σ} (start : P s) :
    (∃ s', sys.Run s word s') ∧ ∀ is s', sys.Run s is s' → is <+: word ∧
      (is ≠ word ∧ (∃ i s'', sys.step s' i s'') ∨ is = word ∧ Q s') := by
  constructor
  · have short : ∀ other ∈ ({word} : Language ι), other.length ≤ word.length := by
      rintro other rfl
      exact Nat.le_refl _
    obtain ⟨other, rfl, s', run, -⟩ := spells.completes short start
    exact ⟨s', run⟩
  · intro is s' run
    obtain ⟨other, rfl, part⟩ := spells.exact stuck start run
    exact part

/-- The words of a loop of `n` passes that can be left behind `test`. -/
def passes (test back : List ι) : Nat → Language ι
  | 0 => 1
  | n + 1 => {test} * (1 + {back} * passes test back n)

/-- A loop that is left when the test says so or the passes are over. -/
theorem loop {P Mid : Nat → σ → Prop} {test back : List ι} {n : Nat}
    (tests : ∀ k < n, sys.Spells (P k) {test} fun s => Q s ∨ Mid k s)
    (returns : ∀ k < n, sys.Spells (Mid k) {back} (P (k + 1))) (ended : ∀ s, P n s → Q s) :
    ∀ m k, k + m = n → sys.Spells (P k) (passes test back m) Q := by
  intro m
  induction m with
  | zero =>
      rintro k rfl
      exact nil.mono (fun _ => id) ended
  | succ m ih =>
      intro k left
      have rest := (returns k (by omega)).append (ih (k + 1) (by omega))
      exact (tests k (by omega)).append (nil.or rest)

/-- How such a word is put together. -/
theorem mem_passes {test back word : List ι} {n : Nat} (member : word ∈ passes test back n) :
    (∃ k < n, word = (List.replicate k (test ++ back)).flatten ++ test) ∨
      word = (List.replicate n (test ++ back)).flatten := by
  induction n generalizing word with
  | zero => exact .inr member
  | succ n ih =>
      obtain ⟨_, rfl, later, rest, rfl⟩ := Language.mem_mul.mp member
      rcases rest with none | again
      · obtain rfl := none
        exact .inl ⟨0, Nat.succ_pos n, by simp⟩
      · obtain ⟨_, rfl, later, rest, rfl⟩ := Language.mem_mul.mp again
        rcases ih rest with ⟨k, below, rfl⟩ | rfl
        · exact .inl ⟨k + 1, Nat.succ_lt_succ below, by simp [List.replicate_succ]⟩
        · exact .inr (by simp [List.replicate_succ])

theorem length_le_of_mem_passes {test back word : List ι} {n : Nat}
    (member : word ∈ passes test back n) : word.length ≤ n * (test ++ back).length := by
  rcases mem_passes member with ⟨k, below, rfl⟩ | rfl
  · rw [List.length_append, List.length_flatten, List.map_replicate, List.sum_replicate_nat]
    calc k * (test ++ back).length + test.length
        ≤ k * (test ++ back).length + (test ++ back).length := by simp
      _ = (k + 1) * (test ++ back).length := (Nat.succ_mul _ _).symm
      _ ≤ n * (test ++ back).length := Nat.mul_le_mul_right _ below
  · rw [List.length_flatten, List.map_replicate, List.sum_replicate_nat]

end Spells

end RadeonsiCompute.Lib.TSys
