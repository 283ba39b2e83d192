import Conformance.Proofs.Text.Search

/-!
# Text on several lines

Here a text is split at a line break, `front ++ '\n' :: back`.  What is looked for on one line is
found in front of the break or not at all, and replacing a needle without a line break replaces it
in front of the break and behind it.
-/

namespace Conformance
namespace Text

variable {needle front back : List Char}

/-- A needle is found in front of a character that it does not hold. -/
theorem after?_append_cons {character : Char} (absent : character ∉ needle) (front back : List Char) :
    after? needle (front ++ character :: back) =
      (after? needle front).map fun rest => rest ++ character :: back := by
  induction needle generalizing front with
  | nil => rfl
  | cons expected needle inductionHypothesis =>
      rw [List.mem_cons, not_or] at absent
      cases front with
      | nil => exact after?_cons_of_ne absent.1
      | cons first front =>
          rw [List.cons_append, after?, after?]
          split
          · exact inductionHypothesis absent.2 front
          · rfl

/-! ## Runs of characters -/

variable {accept : Char → Bool}

/-- A run of characters other than a line break ends in front of the break. -/
theorem takeWhile_append_break (refused : accept '\n' = false) (front back : List Char) :
    (front ++ '\n' :: back).takeWhile accept = front.takeWhile accept := by
  induction front with
  | nil => simp [refused]
  | cons character front inductionHypothesis =>
      rw [List.cons_append, List.takeWhile_cons, List.takeWhile_cons, inductionHypothesis]

theorem dropWhile_append_break (refused : accept '\n' = false) (front back : List Char) :
    (front ++ '\n' :: back).dropWhile accept = front.dropWhile accept ++ '\n' :: back := by
  induction front with
  | nil => simp [refused]
  | cons character front inductionHypothesis =>
      rw [List.cons_append, List.dropWhile_cons, List.dropWhile_cons, inductionHypothesis]
      split <;> rfl

/-- The first line ends in front of the break. -/
theorem firstLine_append_break (front back : List Char) :
    firstLine (front ++ '\n' :: back) = firstLine front :=
  takeWhile_append_break (by decide) front back

theorem afterFirstLine_append_break (front back : List Char) :
    afterFirstLine (front ++ '\n' :: back) = afterFirstLine front ++ '\n' :: back :=
  dropWhile_append_break (by decide) front back

theorem bne_break_of_not_mem (noBreak : '\n' ∉ front) :
    ∀ character ∈ front, (character != '\n') = true := by
  intro character member
  simpa using fun same : character = '\n' => noBreak (same ▸ member)

/-- Text without a line break belongs to the line of what follows it. -/
theorem firstLine_append (noBreak : '\n' ∉ front) (back : List Char) :
    firstLine (front ++ back) = front ++ firstLine back :=
  List.takeWhile_append_of_pos (bne_break_of_not_mem noBreak)

theorem afterFirstLine_append (noBreak : '\n' ∉ front) (back : List Char) :
    afterFirstLine (front ++ back) = afterFirstLine back :=
  List.dropWhile_append_of_pos (bne_break_of_not_mem noBreak)

/-- The first line holds no line break. -/
theorem break_not_mem_firstLine (text : List Char) : '\n' ∉ firstLine text := by
  intro member
  have isBreak := List.all_eq_true.1 List.all_takeWhile _ member
  simp at isBreak

theorem firstLine_afterFirstLine (text : List Char) : firstLine (afterFirstLine text) = [] := by
  rw [firstLine, afterFirstLine]
  induction text with
  | nil => rfl
  | cons character text inductionHypothesis =>
      rw [List.dropWhile_cons]
      split
      · exact inductionHypothesis
      · next isBreak => exact List.takeWhile_cons_of_neg isBreak

theorem firstLine_eq_self (noBreak : '\n' ∉ front) : firstLine front = front := by
  simpa [firstLine] using firstLine_append noBreak []

theorem afterFirstLine_eq_nil (noBreak : '\n' ∉ front) : afterFirstLine front = [] := by
  simpa [afterFirstLine] using afterFirstLine_append noBreak []

/-! ## Replacing -/

theorem replace_cons_append_break
    {first : Char}
    (noBreak : '\n' ∉ first :: needle)
    (replacement front back : List Char) :
    replace (first :: needle) replacement (front ++ '\n' :: back) =
      replace (first :: needle) replacement front ++
        '\n' :: replace (first :: needle) replacement back := by
  match front with
  | [] =>
      have absent : after? (first :: needle) ('\n' :: back) = none :=
        after?_append_cons noBreak [] back
      rw [List.nil_append, replace_of_after?_eq_none absent, replace_nil, List.nil_append]
  | character :: front =>
      have split := after?_append_cons noBreak (character :: front) back
      cases found : after? (first :: needle) (character :: front) with
      | none =>
          rw [found, Option.map_none, List.cons_append] at split
          rw [List.cons_append, replace_of_after?_eq_none split, replace_of_after?_eq_none found,
            replace_cons_append_break noBreak replacement front back, List.cons_append]
      | some rest =>
          rw [found, Option.map_some] at split
          have shorter := congrArg List.length (after?_eq_some_iff.1 found)
          rw [replace_of_after?_eq_some split, replace_of_after?_eq_some found,
            replace_cons_append_break noBreak replacement rest back, List.append_assoc]
termination_by front.length
decreasing_by
  · simp
  · simp only [List.length_append, List.length_cons] at shorter ⊢
    omega

/-- A needle without a line break is replaced in front of the break and behind it. -/
theorem replace_append_break
    (noBreak : '\n' ∉ needle)
    (replacement front back : List Char) :
    replace needle replacement (front ++ '\n' :: back) =
      replace needle replacement front ++ '\n' :: replace needle replacement back := by
  cases needle with
  | nil => simp [replace_empty_needle]
  | cons first needle => exact replace_cons_append_break noBreak replacement front back

end Text
end Conformance
