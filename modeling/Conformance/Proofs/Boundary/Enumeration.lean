import Conformance.Translator
import Mathlib.Algebra.Ring.Nat
import Mathlib.Data.List.Basic

/-!
# The order of the boundary calls

A boundary call is a choice of one value for each argument.  The calls with one invalid argument
are the substitutions, ordered by the position and then by the value.  The calls with several are
the sets of two or more positions with an invalid value, ordered lexicographically as increasing
sequences.  Both lists are sorted and complete, so nothing is missing and nothing stands twice, and
the number of the calls follows.
-/

namespace Conformance
namespace Boundary

open scoped Text

variable {α : Type}

/-- The values of an argument, the valid one first. -/
def Argument.values (argument : Argument α) : List α :=
  argument.valid :: argument.invalid

/-- The call in which every argument has the value of the chosen number. -/
def callWith [Inhabited α] (values : List (List α)) (choice : Nat → Nat) : List α :=
  values.mapIdx fun position alternatives => alternatives[choice position]?.getD default

/-- A position, and the number of an invalid value of the argument there. -/
structure IsSubstitution (values : List (List α)) (substitution : Nat × Nat) : Prop where
  invalid : 0 < substitution.2
  listed : ∃ alternatives, values[substitution.1]? = some alternatives ∧
    substitution.2 < alternatives.length

/-- The increasing positions of two or more arguments that have an invalid value. -/
structure IsCombination (values : List (List α)) (positions : List Nat) : Prop where
  increasing : positions.Pairwise (· < ·)
  several : 2 ≤ positions.length
  invalid : ∀ position ∈ positions, ∃ alternatives, values[position]? = some alternatives ∧
    2 ≤ alternatives.length

/-- What stands between the arguments of a call. -/
theorem chars_separator : Text.chars ", " = [',', ' '] := by
  simp [Text.chars_eq_toList]

/-! ## The arguments with given values -/

theorem ofList?_eq_some_iff {values : List α} {argument : Argument α} :
    Argument.ofList? values = some argument ↔ values = argument.values := by
  cases values with
  | nil => simp [Argument.ofList?, Argument.values]
  | cons valid invalid =>
      obtain ⟨first, others⟩ := argument
      simp [Argument.ofList?, Argument.values]

theorem mapM_ofList?_eq_some_iff {values : List (List α)} {arguments : List (Argument α)} :
    values.mapM Argument.ofList? = some arguments ↔ values = arguments.map Argument.values := by
  induction values generalizing arguments with
  | nil =>
      rw [List.mapM_nil, eq_comm (a := ([] : List (List α))), List.map_eq_nil_iff]
      exact Option.some_inj.trans eq_comm
  | cons alternatives values inductionHypothesis =>
      cases arguments with
      | nil => simp [List.mapM_cons, Option.bind_eq_some_iff]
      | cons argument arguments =>
          simp [List.mapM_cons, Option.bind_eq_some_iff, ofList?_eq_some_iff, inductionHypothesis]

theorem mapM_ofList?_eq_none_iff {values : List (List α)} :
    values.mapM Argument.ofList? = none ↔ [] ∈ values := by
  induction values with
  | nil => simp
  | cons alternatives values inductionHypothesis =>
      cases alternatives with
      | nil => simp [List.mapM_cons, Argument.ofList?]
      | cons valid invalid =>
          cases later : values.mapM Argument.ofList? with
          | none => simp_all [List.mapM_cons, Argument.ofList?]
          | some arguments => simp_all [List.mapM_cons, Argument.ofList?]

/-- Arguments are the given values, of which there are some. -/
theorem arguments?_eq_some_iff {values : List (List α)} {arguments : List (Argument α)} :
    arguments? values = some arguments ↔
      values ≠ [] ∧ values = arguments.map Argument.values := by
  simp [arguments?, mapM_ofList?_eq_some_iff]

theorem arguments?_eq_none_iff {values : List (List α)} :
    arguments? values = none ↔ values = [] ∨ [] ∈ values := by
  rw [arguments?, ← mapM_ofList?_eq_none_iff]
  cases values <;> simp

/-! ## Choices of values -/

variable [Inhabited α] {arguments : List (Argument α)}

theorem callWith_cons (alternatives : List α) (values : List (List α)) (choice : Nat → Nat) :
    callWith (alternatives :: values) choice =
      alternatives[choice 0]?.getD default ::
        callWith values fun position => choice (position + 1) := by
  rw [callWith, List.mapIdx_cons]
  rfl

/-- The valid value has the number zero. -/
theorem callWith_zero (arguments : List (Argument α)) :
    callWith (arguments.map Argument.values) (fun _ => 0) = arguments.map Argument.valid := by
  induction arguments with
  | nil => rfl
  | cons argument arguments inductionHypothesis =>
      rw [List.map_cons, callWith_cons, inductionHypothesis]
      rfl

/-! ## One invalid argument -/

omit [Inhabited α] in
/-- The substitutions of single values, by the position and then by the number of the value. -/
def substitutions : List (Argument α) → List (Nat × Nat)
  | [] => []
  | argument :: others =>
      (List.range argument.invalid.length).map (fun number => (0, number + 1)) ++
        (substitutions others).map fun (position, number) => (position + 1, number)

/-- A call with a single invalid argument has the substituted value there. -/
theorem singles_eq (arguments : List (Argument α)) :
    singles arguments = (substitutions arguments).map fun (position, number) =>
      callWith (arguments.map Argument.values) fun other =>
        if other = position then number else 0 := by
  induction arguments with
  | nil => rfl
  | cons argument others inductionHypothesis =>
      have first : argument.invalid.map (· :: others.map Argument.valid) =
          (List.range argument.invalid.length).map fun number =>
            callWith ((argument :: others).map Argument.values) fun other =>
              if other = 0 then number + 1 else 0 := by
        apply List.ext_getElem
        · simp
        · intro number bound _
          simp only [List.length_map] at bound
          simp [callWith_cons, callWith_zero, Argument.values, bound]
      rw [singles, substitutions, List.map_append, List.map_map, List.map_map,
        inductionHypothesis, List.map_map, first]
      congr 1
      apply List.map_congr_left
      rintro ⟨position, number⟩ _
      simp [callWith_cons, Argument.values]

omit [Inhabited α] in
theorem mem_substitutions_iff {substitution : Nat × Nat} :
    substitution ∈ substitutions arguments ↔
      IsSubstitution (arguments.map Argument.values) substitution := by
  obtain ⟨position, number⟩ := substitution
  induction arguments generalizing position with
  | nil =>
      constructor
      · intro member
        cases member
      · rintro ⟨-, alternatives, found, -⟩
        cases found
  | cons argument others inductionHypothesis =>
      simp only [substitutions, List.mem_append, List.mem_map, List.mem_range, Prod.mk.injEq,
        Prod.exists]
      cases position with
      | zero =>
          constructor
          · rintro (⟨index, bound, -, rfl⟩ | ⟨_, _, -, impossible, -⟩)
            · exact ⟨Nat.succ_pos index, argument.values, rfl, Nat.succ_lt_succ bound⟩
            · cases impossible
          · rintro ⟨positive, alternatives, found, bound⟩
            obtain rfl : argument.values = alternatives := by simpa using found
            obtain ⟨index, rfl⟩ := Nat.exists_eq_succ_of_ne_zero (Nat.ne_of_gt positive)
            exact .inl ⟨index, Nat.lt_of_succ_lt_succ bound, rfl, rfl⟩
      | succ position =>
          have later := inductionHypothesis position
          constructor
          · rintro (⟨_, _, impossible, -⟩ | ⟨_, _, member, same, rfl⟩)
            · cases impossible
            · obtain rfl := Nat.succ.inj same
              exact ⟨(later.1 member).invalid, (later.1 member).listed⟩
          · rintro ⟨positive, listed⟩
            exact .inr ⟨position, number, later.2 ⟨positive, listed⟩, rfl, rfl⟩

omit [Inhabited α] in
theorem pairwise_substitutions (arguments : List (Argument α)) :
    (substitutions arguments).Pairwise (Prod.Lex (· < ·) (· < ·)) := by
  induction arguments with
  | nil => exact .nil
  | cons argument others inductionHypothesis =>
      rw [substitutions, List.pairwise_append, List.pairwise_map, List.pairwise_map]
      refine ⟨?_, ?_, ?_⟩
      · exact List.pairwise_lt_range.imp fun less => .right 0 (Nat.succ_lt_succ less)
      · refine inductionHypothesis.imp fun less => ?_
        cases less with
        | left _ _ less => exact .left _ _ (Nat.succ_lt_succ less)
        | right position less => exact .right _ less
      · intro first inFirst second inSecond
        obtain ⟨number, -, rfl⟩ := List.mem_map.1 inFirst
        obtain ⟨⟨position, other⟩, -, rfl⟩ := List.mem_map.1 inSecond
        exact .left _ _ (Nat.succ_pos position)

omit [Inhabited α] in
theorem length_substitutions (arguments : List (Argument α)) :
    (substitutions arguments).length =
      ((arguments.map Argument.values).map fun alternatives => alternatives.length - 1).sum := by
  induction arguments with
  | nil => rfl
  | cons argument others inductionHypothesis =>
      simp [substitutions, inductionHypothesis, Argument.values]

/-! ## Several invalid arguments -/

/-- The call in which the arguments at some positions have their first invalid value. -/
def callAt (values : List (List α)) (positions : List Nat) : List α :=
  callWith values fun position => if position ∈ positions then 1 else 0

/-- The positions behind a first one. -/
def shifted (positions : List Nat) : List Nat :=
  positions.map (· + 1)

omit [Inhabited α] in
/-- The increasing sequences of positions with an invalid value, lexicographically.  A sequence of
one position counts only if an earlier argument is invalid already. -/
def positionSets (substituted : Bool) : List (Argument α) → List (List Nat)
  | [] => []
  | argument :: others =>
      (if argument.invalid.isEmpty then []
        else
          (if substituted then [[0]] else []) ++
            (positionSets true others).map fun positions => 0 :: shifted positions) ++
        (positionSets substituted others).map shifted

theorem callAt_shifted
    (alternatives : List α)
    (values : List (List α))
    (positions : List Nat) :
    callAt (alternatives :: values) (shifted positions) =
      alternatives[0]?.getD default :: callAt values positions := by
  simp [callAt, callWith_cons, shifted]

theorem callAt_zero_shifted
    (alternatives : List α)
    (values : List (List α))
    (positions : List Nat) :
    callAt (alternatives :: values) (0 :: shifted positions) =
      alternatives[1]?.getD default :: callAt values positions := by
  simp [callAt, callWith_cons, shifted]

theorem callAt_nil (arguments : List (Argument α)) :
    callAt (arguments.map Argument.values) [] = arguments.map Argument.valid := by
  rw [← callWith_zero, callAt]
  simp

/-- A call with several invalid arguments has the first invalid value at each of the positions. -/
theorem combinations_eq (substituted : Bool) (arguments : List (Argument α)) :
    combinations substituted arguments =
      (positionSets substituted arguments).map (callAt (arguments.map Argument.values)) := by
  induction arguments generalizing substituted with
  | nil => rfl
  | cons argument others inductionHypothesis =>
      have withValid : (combinations substituted others).map (argument.valid :: ·) =
          ((positionSets substituted others).map shifted).map
            (callAt ((argument :: others).map Argument.values)) := by
        rw [inductionHypothesis, List.map_map, List.map_map]
        apply List.map_congr_left
        intro positions _
        exact (callAt_shifted argument.values (others.map Argument.values) positions).symm
      rw [combinations, positionSets, List.map_append, ← withValid]
      cases isInvalid : argument.invalid with
      | nil => rfl
      | cons value values =>
          have withInvalid : (combinations true others).map (value :: ·) =
              ((positionSets true others).map fun positions => 0 :: shifted positions).map
                (callAt ((argument :: others).map Argument.values)) := by
            rw [inductionHypothesis, List.map_map, List.map_map]
            apply List.map_congr_left
            intro positions _
            simp [callAt_zero_shifted, Argument.values, isInvalid]
          have alone : callAt (argument.values :: others.map Argument.values) [0] =
              value :: others.map Argument.valid := by
            have first := callAt_zero_shifted argument.values (others.map Argument.values) []
            rw [callAt_nil] at first
            simpa [shifted, Argument.values, isInvalid] using first
          cases substituted with
          | false => simp only [withInvalid, List.isEmpty_cons, Bool.false_eq_true, if_false,
              List.nil_append]
          | true => simp only [withInvalid, alone, List.isEmpty_cons, Bool.false_eq_true, if_false,
              if_true, List.map_append, List.map_cons, List.map_nil]

/-! ### The sequences of positions -/

theorem length_shifted (positions : List Nat) : (shifted positions).length = positions.length :=
  List.length_map _

theorem shifted_inj {first second : List Nat} : shifted first = shifted second ↔ first = second :=
  (List.map_injective_iff.2 fun _ _ => Nat.succ.inj).eq_iff

theorem ne_shifted (positions later : List Nat) : 0 :: positions ≠ shifted later := by
  cases later with
  | nil => exact List.cons_ne_nil _ _
  | cons position later => exact fun same => nomatch (List.cons.inj same).1

theorem pairwise_shifted_iff {positions : List Nat} :
    (shifted positions).Pairwise (· < ·) ↔ positions.Pairwise (· < ·) := by
  rw [shifted, List.pairwise_map]
  simp only [Nat.add_lt_add_iff_right]

theorem pairwise_zero_shifted_iff {positions : List Nat} :
    (0 :: shifted positions).Pairwise (· < ·) ↔ positions.Pairwise (· < ·) := by
  rw [List.pairwise_cons, pairwise_shifted_iff]
  simp [shifted]

/-- An increasing sequence begins with zero or does not hold it. -/
theorem exists_shifted {positions : List Nat} (increasing : positions.Pairwise (· < ·)) :
    ∃ later, positions = shifted later ∨ positions = 0 :: shifted later := by
  have positive : ∀ sequence : List Nat, (∀ position ∈ sequence, 0 < position) →
      sequence = shifted (sequence.map (· - 1)) := by
    intro sequence allPositive
    rw [shifted, List.map_map]
    conv => lhs; rw [← List.map_id sequence]
    apply List.map_congr_left
    intro position member
    exact (Nat.succ_pred_eq_of_pos (allPositive position member)).symm
  cases positions with
  | nil => exact ⟨[], .inl rfl⟩
  | cons first others =>
      have above := (List.pairwise_cons.1 increasing).1
      cases first with
      | zero => exact ⟨_, .inr (congrArg (0 :: ·) (positive others above))⟩
      | succ first =>
          refine ⟨_, .inl (positive _ ?_)⟩
          rw [List.forall_mem_cons]
          exact ⟨Nat.succ_pos first, fun position member =>
            Nat.zero_lt_of_lt (above position member)⟩

omit [Inhabited α] in
theorem shifted_mem_positionSets_iff
    {substituted : Bool}
    {argument : Argument α}
    {positions : List Nat} :
    shifted positions ∈ positionSets substituted (argument :: arguments) ↔
      positions ∈ positionSets substituted arguments := by
  have notZero : ∀ later, [0] ≠ shifted later := fun later => ne_shifted [] later
  cases isInvalid : argument.invalid <;> cases substituted <;>
    simp [positionSets, isInvalid, shifted_inj, ne_shifted, Ne.symm, notZero]

omit [Inhabited α] in
theorem zero_shifted_mem_positionSets_iff
    {substituted : Bool}
    {argument : Argument α}
    {positions : List Nat} :
    0 :: shifted positions ∈ positionSets substituted (argument :: arguments) ↔
      argument.invalid ≠ [] ∧
        (substituted = true ∧ positions = [] ∨ positions ∈ positionSets true arguments) := by
  have alone : shifted positions = [] ↔ positions = [] := List.map_eq_nil_iff
  cases isInvalid : argument.invalid <;> cases substituted <;>
    simp [positionSets, isInvalid, shifted_inj, Ne.symm (ne_shifted _ _), alone]

omit [Inhabited α] in
theorem exists_shifted_of_mem
    {substituted : Bool}
    {argument : Argument α}
    {positions : List Nat}
    (member : positions ∈ positionSets substituted (argument :: arguments)) :
    ∃ later, positions = shifted later ∨ positions = 0 :: shifted later := by
  rw [positionSets, List.mem_append] at member
  rcases member with inFirst | inLater
  · split at inFirst
    · cases inFirst
    · rcases List.mem_append.1 inFirst with alone | inOthers
      · cases substituted
        · cases alone
        · exact ⟨[], .inr (List.mem_singleton.1 alone)⟩
      · obtain ⟨later, -, rfl⟩ := List.mem_map.1 inOthers
        exact ⟨later, .inr rfl⟩
  · obtain ⟨later, -, rfl⟩ := List.mem_map.1 inLater
    exact ⟨later, .inl rfl⟩

omit [Inhabited α] in
/-- The sequences are the ones that increase and stand for invalid values. -/
theorem mem_positionSets_iff {substituted : Bool} {positions : List Nat} :
    positions ∈ positionSets substituted arguments ↔
      positions.Pairwise (· < ·) ∧ (if substituted then 1 else 2) ≤ positions.length ∧
        ∀ position ∈ positions, ∃ alternatives,
          (arguments.map Argument.values)[position]? = some alternatives ∧
            2 ≤ alternatives.length := by
  induction arguments generalizing substituted positions with
  | nil =>
      constructor
      · intro member
        cases member
      · rintro ⟨-, several, invalid⟩
        cases positions with
        | nil => cases substituted <;> simp at several
        | cons position positions =>
            obtain ⟨alternatives, found, -⟩ := invalid position List.mem_cons_self
            cases found
  | cons argument others inductionHypothesis =>
      have variable_iff : argument.invalid ≠ [] ↔ 2 ≤ argument.values.length := by
        rw [← List.length_pos_iff]
        exact Nat.succ_le_succ_iff.symm
      by_cases form : ∃ later, positions = shifted later ∨ positions = 0 :: shifted later
      · obtain ⟨later, rfl | rfl⟩ := form
        · rw [shifted_mem_positionSets_iff, inductionHypothesis, pairwise_shifted_iff,
            length_shifted]
          simp [shifted]
        · have first_iff : (∃ alternatives,
              ((argument :: others).map Argument.values)[0]? = some alternatives ∧
                2 ≤ alternatives.length) ↔ 2 ≤ argument.values.length := by simp
          have later_iff : (∀ position ∈ shifted later, ∃ alternatives,
              ((argument :: others).map Argument.values)[position]? = some alternatives ∧
                2 ≤ alternatives.length) ↔
              ∀ position ∈ later, ∃ alternatives,
                (others.map Argument.values)[position]? = some alternatives ∧
                  2 ≤ alternatives.length := by simp [shifted]
          rw [zero_shifted_mem_positionSets_iff, inductionHypothesis, pairwise_zero_shifted_iff,
            List.forall_mem_cons, List.length_cons, length_shifted, variable_iff, first_iff,
            later_iff]
          -- an empty rest counts only behind an earlier substitution
          cases later with
          | nil => cases substituted <;> simp
          | cons position later =>
              have atLeast : (if substituted = true then 1 else 2) ≤ later.length + 1 + 1 := by
                split <;> omega
              simp only [List.cons_ne_nil, and_false, false_or, List.length_cons, atLeast, if_true,
                Nat.le_add_left, true_and]
              exact and_left_comm
      · constructor
        · exact fun member => absurd (exists_shifted_of_mem member) form
        · exact fun parts => absurd (exists_shifted parts.1) form

omit [Inhabited α] in
theorem ne_nil_of_mem_positionSets
    {substituted : Bool}
    {positions : List Nat}
    (member : positions ∈ positionSets substituted arguments) :
    positions ≠ [] := by
  have several := (mem_positionSets_iff.1 member).2.1
  rintro rfl
  cases substituted <;> simp at several

theorem zero_cons_lt_shifted (positions : List Nat) {later : List Nat} (nonempty : later ≠ []) :
    0 :: positions < shifted later := by
  obtain ⟨first, others, rfl⟩ := List.exists_cons_of_ne_nil nonempty
  exact .rel (Nat.succ_pos first)

omit [Inhabited α] in
/-- The sequences stand in lexicographic order, each one once. -/
theorem pairwise_positionSets (substituted : Bool) (arguments : List (Argument α)) :
    (positionSets substituted arguments).Pairwise (· < ·) := by
  induction arguments generalizing substituted with
  | nil => exact .nil
  | cons argument others inductionHypothesis =>
      have monotone : ∀ first second : List Nat,
          first < second → shifted first < shifted second :=
        fun _ _ => List.map_lt fun _ _ => Nat.succ_lt_succ
      have inLater := (inductionHypothesis substituted).map shifted monotone
      have inFirst : ((positionSets true others).map fun positions =>
          0 :: shifted positions).Pairwise (· < ·) :=
        (inductionHypothesis true).map _ fun first second less => .cons (monotone first second less)
      rw [positionSets]
      split
      · exact inLater
      · refine List.pairwise_append.2 ⟨?_, inLater, ?_⟩
        · cases substituted with
          | false => exact inFirst
          | true =>
              refine List.pairwise_cons.2 ⟨?_, inFirst⟩
              intro positions member
              obtain ⟨later, inOthers, rfl⟩ := List.mem_map.1 member
              have nonempty := ne_nil_of_mem_positionSets inOthers
              obtain ⟨first, rest, rfl⟩ := List.exists_cons_of_ne_nil nonempty
              exact .cons .nil
        · intro first inFirst second inSecond
          obtain ⟨later, inOthers, rfl⟩ := List.mem_map.1 inSecond
          have begins : ∃ positions, first = 0 :: positions := by
            rcases List.mem_append.1 inFirst with alone | inBlock
            · cases substituted
              · cases alone
              · exact ⟨[], List.mem_singleton.1 alone⟩
            · obtain ⟨positions, -, rfl⟩ := List.mem_map.1 inBlock
              exact ⟨_, rfl⟩
          obtain ⟨positions, rfl⟩ := begins
          exact zero_cons_lt_shifted positions (ne_nil_of_mem_positionSets inOthers)

omit [Inhabited α] in
/-- With an earlier invalid argument there is a sequence for every set of positions but the empty
one, and without it for every set but that and those of a single position. -/
theorem length_positionSets (arguments : List (Argument α)) :
    let variants := (arguments.map Argument.values).countP fun alternatives =>
      2 ≤ alternatives.length
    (positionSets true arguments).length + 1 = 2 ^ variants ∧
      (positionSets false arguments).length + 1 + variants = 2 ^ variants := by
  induction arguments with
  | nil => exact ⟨rfl, rfl⟩
  | cons argument others inductionHypothesis =>
      obtain ⟨nonempty, several⟩ := inductionHypothesis
      intro variants
      cases isInvalid : argument.invalid with
      | nil =>
          have fixed : variants = (others.map Argument.values).countP fun alternatives =>
              2 ≤ alternatives.length := by
            simp [variants, Argument.values, isInvalid]
          rw [fixed]
          simpa [positionSets, isInvalid] using And.intro nonempty several
      | cons value values =>
          have oneMore : variants = ((others.map Argument.values).countP fun alternatives =>
              2 ≤ alternatives.length) + 1 := by
            simp [variants, Argument.values, isInvalid]
          rw [oneMore, Nat.pow_succ]
          simp only [positionSets, isInvalid, List.isEmpty_cons, Bool.false_eq_true, if_false,
            if_true, List.length_append, List.length_map, List.length_cons, List.length_nil]
          omega

/-! ## All boundary calls -/

/-- Arguments are missing exactly if there is none or one without a value.  Otherwise the boundary
calls are those of all substitutions, in order, and those of all combinations, in order. -/
theorem expand?_enumerates
    (callable tail : List Char)
    (values : List (List (List Char))) :
    (expand? callable values tail = none ↔ values = [] ∨ [] ∈ values) ∧
      (∀ written, readArguments written = values →
        (Body.Piece.expand (.active (.nonfinite callable written tail)) =
          .error (.arity (String.ofList callable)) ↔ values = [] ∨ [] ∈ values)) ∧
      ∀ texts, expand? callable values tail = some texts →
        ∃ (substitutions : List (Nat × Nat)) (combinations : List (List Nat)),
          (∀ single, single ∈ substitutions ↔ IsSubstitution values single) ∧
          substitutions.Pairwise (Prod.Lex (· < ·) (· < ·)) ∧
          (∀ positions, positions ∈ combinations ↔ IsCombination values positions) ∧
          combinations.Pairwise (· < ·) ∧
          texts =
            (substitutions.map (fun (position, number) =>
                callWith values fun other => if other = position then number else 0) ++
              combinations.map fun positions =>
                callWith values fun other => if other ∈ positions then 1 else 0).map
              (callText callable tail) ∧
          let variants := values.countP fun alternatives => 2 ≤ alternatives.length
          texts.length =
            (values.map fun alternatives => alternatives.length - 1).sum +
              (2 ^ variants - 1 - variants) := by
  have missing_iff : expand? callable values tail = none ↔ values = [] ∨ [] ∈ values := by
    rw [expand?, Option.map_eq_none_iff, arguments?_eq_none_iff]
  refine ⟨missing_iff, ?_, ?_⟩
  · rintro written rfl
    rw [← missing_iff, Body.Piece.expand]
    cases expand? callable (readArguments written) tail <;> simp
  · intro texts found
    obtain ⟨arguments, isArguments, rfl⟩ := Option.map_eq_some_iff.1 found
    obtain ⟨-, rfl⟩ := arguments?_eq_some_iff.1 isArguments
    have calls_eq : calls arguments =
        (substitutions arguments).map (fun (position, number) =>
          callWith (arguments.map Argument.values) fun other =>
            if other = position then number else 0) ++
        (positionSets false arguments).map (callAt (arguments.map Argument.values)) := by
      rw [calls, singles_eq, combinations_eq]
    refine ⟨substitutions arguments, positionSets false arguments, ?_,
      pairwise_substitutions arguments, ?_, pairwise_positionSets false arguments, ?_, ?_⟩
    · exact fun substitution => mem_substitutions_iff
    · intro positions
      rw [mem_positionSets_iff]
      exact ⟨fun ⟨increasing, several, invalid⟩ => ⟨increasing, several, invalid⟩,
        fun ⟨increasing, several, invalid⟩ => ⟨increasing, several, invalid⟩⟩
    · rw [calls_eq]
      rfl
    · have count := (length_positionSets arguments).2
      rw [calls_eq, List.length_map, List.length_append, List.length_map, List.length_map,
        length_substitutions]
      dsimp only at count ⊢
      omega

/-- Three arguments with invalid values, one of them with two. -/
theorem expand?_enumerates_three :
    let values : List (List (List Char)) := [["0", "a"], ["0", "b", "c"], ["0", "d"]]
    let texts : List (List Char) :=
      ["f(a, 0, 0);", "f(0, b, 0);", "f(0, c, 0);", "f(0, 0, d);",
       "f(a, b, 0);", "f(a, b, d);", "f(a, 0, d);", "f(0, b, d);"]
    expand? "f" values ";" = some texts ∧
      texts.length = (values.map fun alternatives => alternatives.length - 1).sum +
        (2 ^ 3 - 1 - 3) := by
  intro values texts
  have found : expand? "f" values ";" = some texts := by
    simp only [values, texts, Text.chars_eq_toList]
    decide +kernel
  obtain ⟨_, _, -, -, -, -, -, count⟩ := (expand?_enumerates "f" ";" values).2.2 texts found
  exact ⟨found, count⟩

end Boundary
end Conformance
