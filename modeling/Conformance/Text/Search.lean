/-!
# Searching text

Text is worked on as a list of characters.  A search for a needle gives what stands before an
occurrence and what follows it; replacing and counting are read off the pieces that the
occurrences leave.
-/

namespace Conformance
namespace Text

/-- What follows the needle in a text that begins with it. -/
def after? : List Char → List Char → Option (List Char)
  | [], rest => some rest
  | _ :: _, [] => none
  | expected :: needle, character :: rest =>
      if expected = character then after? needle rest else none

/-- A text begins with a needle exactly if it is the needle and what follows. -/
theorem after?_eq_some_iff
    {needle text rest : List Char} :
    after? needle text = some rest ↔ text = needle ++ rest := by
  induction needle generalizing text with
  | nil => simp [after?]
  | cons expected needle inductionHypothesis =>
      cases text with
      | nil => simp [after?]
      | cons character text =>
          by_cases equal : expected = character
          · simp [after?, equal, inductionHypothesis]
          · simp [after?, equal, Ne.symm equal]

/-- The text around the first occurrence of the needle. -/
def splitFirst? (needle : List Char) : List Char → Option (List Char × List Char)
  | [] => (after? needle []).map fun rest => ([], rest)
  | character :: text =>
      match after? needle (character :: text) with
      | some rest => some ([], rest)
      | none =>
          (splitFirst? needle text).map fun (before, rest) => (character :: before, rest)

/-- The parts around the first occurrence make up the text. -/
theorem eq_of_splitFirst?_eq_some
    {needle text before rest : List Char}
    (found : splitFirst? needle text = some (before, rest)) :
    text = before ++ needle ++ rest := by
  induction text generalizing before with
  | nil =>
      simp only [splitFirst?, Option.map_eq_some_iff, Prod.mk.injEq] at found
      obtain ⟨after, isAfter, rfl, rfl⟩ := found
      simpa using after?_eq_some_iff.1 isAfter
  | cons character text inductionHypothesis =>
      simp only [splitFirst?] at found
      split at found
      · next after isAfter =>
          simp only [Option.some.injEq, Prod.mk.injEq] at found
          obtain ⟨rfl, rfl⟩ := found
          simpa using after?_eq_some_iff.1 isAfter
      · simp only [Option.map_eq_some_iff, Prod.mk.injEq, Prod.exists] at found
        obtain ⟨front, after, inner, rfl, rfl⟩ := found
        simp [inductionHypothesis inner]

/-- The text around the last occurrence of the needle. -/
def splitLast? (needle : List Char) : List Char → Option (List Char × List Char)
  | [] => (after? needle []).map fun rest => ([], rest)
  | character :: text =>
      match splitLast? needle text with
      | some (before, rest) => some (character :: before, rest)
      | none => (after? needle (character :: text)).map fun rest => ([], rest)

/-- The parts around the last occurrence make up the text. -/
theorem eq_of_splitLast?_eq_some
    {needle text before rest : List Char}
    (found : splitLast? needle text = some (before, rest)) :
    text = before ++ needle ++ rest := by
  induction text generalizing before with
  | nil =>
      simp only [splitLast?, Option.map_eq_some_iff, Prod.mk.injEq] at found
      obtain ⟨after, isAfter, rfl, rfl⟩ := found
      simpa using after?_eq_some_iff.1 isAfter
  | cons character text inductionHypothesis =>
      simp only [splitLast?] at found
      split at found
      · next front after inner =>
          simp only [Option.some.injEq, Prod.mk.injEq] at found
          obtain ⟨rfl, rfl⟩ := found
          simp [inductionHypothesis inner]
      · simp only [Option.map_eq_some_iff, Prod.mk.injEq] at found
        obtain ⟨after, isAfter, rfl, rfl⟩ := found
        simpa using after?_eq_some_iff.1 isAfter

/-- Whether the needle occurs in the text. -/
def occursIn (needle text : List Char) : Bool :=
  (splitFirst? needle text).isSome

/-- The pieces of the text between occurrences of a needle that begins with `first`; the
occurrences are taken from the left and do not overlap. -/
def piecesBetween (first : Char) (needle : List Char) (text : List Char) : List (List Char) :=
  match _found : splitFirst? (first :: needle) text with
  | none => [text]
  | some (before, rest) => before :: piecesBetween first needle rest
termination_by text.length
decreasing_by
  have parts := eq_of_splitFirst?_eq_some _found
  simp only [parts, List.length_append, List.length_cons]
  omega

/-- The pieces of the text between occurrences of the needle.  The empty needle occurs before
every character and at the end. -/
def pieces : List Char → List Char → List (List Char)
  | [], text => [] :: text.map (fun character => [character]) ++ [[]]
  | first :: needle, text => piecesBetween first needle text

/-- How often the needle occurs in the text, counted from the left without overlap. -/
def occurrences (needle text : List Char) : Nat :=
  (pieces needle text).length - 1

/-- The text with every occurrence of the needle replaced. -/
def replace (needle replacement text : List Char) : List Char :=
  replacement.intercalate (pieces needle text)

/-- The first line of the text, without its line break. -/
def firstLine (text : List Char) : List Char :=
  text.takeWhile (· != '\n')

/-- What follows the first line of the text, beginning with its line break. -/
def afterFirstLine (text : List Char) : List Char :=
  text.dropWhile (· != '\n')

theorem firstLine_append_afterFirstLine (text : List Char) :
    firstLine text ++ afterFirstLine text = text :=
  List.takeWhile_append_dropWhile

end Text
end Conformance
