import Conformance.Text.Search

/-!
# Equations for searching

Replacing and counting read a text from the left.  Where the needle begins, they step over it;
where it does not, they step over one character.  The main statements are these equations, one for
each way in which a text can begin.
-/

namespace Conformance
namespace Text

variable {first character : Char} {needle replacement text rest : List Char}

theorem after?_cons_of_ne (different : character ≠ first) :
    after? (first :: needle) (character :: text) = none := by
  rw [after?, if_neg different.symm]

theorem after?_append_self (needle rest : List Char) : after? needle (needle ++ rest) = some rest :=
  after?_eq_some_iff.2 rfl

/-- The parts of a needle are found one behind the other. -/
theorem after?_append (front needle text : List Char) :
    after? (front ++ needle) text = (after? front text).bind (after? needle) := by
  induction front generalizing text with
  | nil => rfl
  | cons expected front inductionHypothesis =>
      cases text with
      | nil => rfl
      | cons character text =>
          rw [List.cons_append, after?, after?]
          split
          · exact inductionHypothesis text
          · rfl

/-- Nothing follows the needle in a text that does not begin with it. -/
theorem after?_eq_none_iff : after? needle text = none ↔ ¬ needle <+: text := by
  rw [Option.eq_none_iff_forall_ne_some, List.IsPrefix, not_exists]
  exact forall_congr' fun rest => not_congr (after?_eq_some_iff.trans eq_comm)

/-! ## The pieces between occurrences -/

theorem pieces_nil : pieces (first :: needle) [] = [[]] := by
  rw [pieces, piecesBetween]
  rfl

/-- A text that begins with the needle has an empty piece in front of it. -/
theorem pieces_of_after?_eq_some (found : after? (first :: needle) text = some rest) :
    pieces (first :: needle) text = [] :: pieces (first :: needle) rest := by
  cases text with
  | nil => simp [after?] at found
  | cons character text =>
      have split : splitFirst? (first :: needle) (character :: text) = some ([], rest) := by
        rw [splitFirst?, found]
      rw [pieces, piecesBetween]
      split
      · next none? => simp [split] at none?
      · next before after some? =>
          rw [split, Option.some.injEq, Prod.mk.injEq] at some?
          obtain ⟨rfl, rfl⟩ := some?
          rw [pieces]

/-- A character at which the needle does not begin belongs to the first piece. -/
theorem pieces_of_after?_eq_none (absent : after? (first :: needle) (character :: text) = none) :
    pieces (first :: needle) (character :: text) =
      (pieces (first :: needle) text).modifyHead (character :: ·) := by
  have step : splitFirst? (first :: needle) (character :: text) =
      (splitFirst? (first :: needle) text).map fun parts => (character :: parts.1, parts.2) := by
    rw [splitFirst?, absent]
  rw [pieces, pieces, piecesBetween, piecesBetween.eq_1 first needle text]
  cases later : splitFirst? (first :: needle) text with
  | none =>
      rw [later] at step
      split
      · rfl
      · next before after some? => simp [step] at some?
  | some parts =>
      rw [later] at step
      split
      · next none? => simp [step] at none?
      · next before after some? =>
          simp only [step, Option.map_some, Option.some.injEq, Prod.mk.injEq] at some?
          obtain ⟨rfl, rfl⟩ := some?
          rfl

theorem pieces_ne_nil (first : Char) (needle text : List Char) :
    pieces (first :: needle) text ≠ [] := by
  rw [pieces, piecesBetween]
  split <;> simp

/-- Text without the first character of the needle is a piece of its own. -/
theorem pieces_append_needle_append
    {front : List Char}
    (absent : first ∉ front)
    (back : List Char) :
    pieces (first :: needle) (front ++ (first :: needle) ++ back) =
      front :: pieces (first :: needle) back := by
  induction front with
  | nil => exact pieces_of_after?_eq_some (after?_append_self _ back)
  | cons character front inductionHypothesis =>
      rw [List.mem_cons, not_or] at absent
      rw [List.cons_append, List.cons_append,
        pieces_of_after?_eq_none (after?_cons_of_ne (Ne.symm absent.1)),
        inductionHypothesis absent.2, List.modifyHead_cons]

theorem pieces_of_not_mem (absent : first ∉ text) : pieces (first :: needle) text = [text] := by
  induction text with
  | nil => exact pieces_nil
  | cons character text inductionHypothesis =>
      rw [List.mem_cons, not_or] at absent
      rw [pieces_of_after?_eq_none (after?_cons_of_ne (Ne.symm absent.1)),
        inductionHypothesis absent.2, List.modifyHead_cons]

/-- Items without the first character of the needle are the pieces between the needles. -/
theorem pieces_intercalate
    {items : List (List Char)}
    (nonempty : items ≠ [])
    (absent : ∀ item ∈ items, first ∉ item) :
    pieces (first :: needle) ((first :: needle).intercalate items) = items := by
  match items, nonempty with
  | [item], _ =>
      rw [List.intercalate_singleton]
      exact pieces_of_not_mem (absent item List.mem_cons_self)
  | item :: next :: others, _ =>
      rw [List.forall_mem_cons] at absent
      rw [List.intercalate_cons_cons, pieces_append_needle_append absent.1,
        pieces_intercalate (List.cons_ne_nil next others) absent.2]

/-! ## Counting -/

theorem occurrences_nil : occurrences (first :: needle) [] = 0 := by
  rw [occurrences, pieces_nil]
  rfl

theorem occurrences_of_after?_eq_some (found : after? (first :: needle) text = some rest) :
    occurrences (first :: needle) text = occurrences (first :: needle) rest + 1 := by
  have nonempty := List.length_pos_iff.2 (pieces_ne_nil first needle rest)
  rw [occurrences, occurrences, pieces_of_after?_eq_some found, List.length_cons]
  omega

theorem occurrences_of_after?_eq_none
    (absent : after? (first :: needle) (character :: text) = none) :
    occurrences (first :: needle) (character :: text) = occurrences (first :: needle) text := by
  rw [occurrences, occurrences, pieces_of_after?_eq_none absent, List.length_modifyHead]

/-- Text without the first character of the needle holds no occurrence. -/
theorem occurrences_append_of_not_mem
    {front : List Char}
    (absent : first ∉ front)
    (back : List Char) :
    occurrences (first :: needle) (front ++ back) = occurrences (first :: needle) back := by
  induction front with
  | nil => rfl
  | cons character front inductionHypothesis =>
      rw [List.mem_cons, not_or] at absent
      rw [List.cons_append, occurrences_of_after?_eq_none (after?_cons_of_ne (Ne.symm absent.1)),
        inductionHypothesis absent.2]

/-! ## Replacing -/

theorem intercalate_modifyHead_cons
    {separator : List Char}
    {items : List (List Char)}
    (nonempty : items ≠ []) :
    separator.intercalate (items.modifyHead (character :: ·)) =
      character :: separator.intercalate items := by
  match items, nonempty with
  | [item], _ => simp
  | item :: next :: others, _ => simp

theorem replace_nil : replace (first :: needle) replacement [] = [] := by
  rw [replace, pieces_nil, List.intercalate_singleton]

theorem replace_of_after?_eq_some (found : after? (first :: needle) text = some rest) :
    replace (first :: needle) replacement text =
      replacement ++ replace (first :: needle) replacement rest := by
  rw [replace, replace, pieces_of_after?_eq_some found]
  obtain ⟨piece, others, parts⟩ :=
    List.exists_cons_of_ne_nil (pieces_ne_nil first needle rest)
  rw [parts, List.intercalate_cons_cons, List.nil_append]

theorem replace_of_after?_eq_none
    (absent : after? (first :: needle) (character :: text) = none) :
    replace (first :: needle) replacement (character :: text) =
      character :: replace (first :: needle) replacement text := by
  rw [replace, replace, pieces_of_after?_eq_none absent,
    intercalate_modifyHead_cons (pieces_ne_nil first needle text)]

/-- The empty needle stands around every character. -/
theorem replace_empty_needle (replacement text : List Char) :
    replace [] replacement text = replacement ++ text.flatMap (· :: replacement) := by
  have behind : ∀ piece : List Char,
      replacement.intercalate (piece :: text.map (fun character => [character]) ++ [[]]) =
        piece ++ replacement ++ text.flatMap (· :: replacement) := by
    induction text with
    | nil => simp
    | cons character text inductionHypothesis =>
        intro piece
        have later := inductionHypothesis [character]
        rw [List.cons_append] at later
        rw [List.map_cons, List.cons_append, List.cons_append, List.intercalate_cons_cons, later,
          List.flatMap_cons]
        simp
  exact behind []

end Text
end Conformance
