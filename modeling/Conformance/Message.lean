import Conformance.Text.Literal
import Conformance.Text.Word

/-!
# Failure messages

A failure message quotes source text inside a double-quoted string literal of the generated code.
Quotes and backslashes are escaped.  A subscript such as `[i]` is taken out of the literal and
joined to it, so that the message shows the value of the index when the code runs.
-/

namespace Conformance
namespace Message

open scoped Text

/-- A part of the quoted source text. -/
inductive Part where
  /-- A character that stands for itself. -/
  | plain (character : Char)
  /-- A word in square brackets. -/
  | subscript (word : List Char)
deriving DecidableEq, Repr

namespace Part

/-- The source text of a part. -/
def source : Part → List Char
  | .plain character => [character]
  | .subscript word => '[' :: word ++ [']']

/-- How a part is written inside the literal. -/
def escaped : Part → List Char
  | .plain '\\' => ['\\', '\\']
  | .plain '"' => ['\\', '"']
  | .plain character => [character]
  | .subscript word => "[\\\"\"+(" ++ word ++ ")+\"\\\"]"

end Part

/-- The word in the subscript that the text begins with, and what follows the subscript. -/
def subscript? : List Char → Option (List Char × List Char)
  | '[' :: text =>
      match text.takeWhile Text.isWord, text.dropWhile Text.isWord with
      | first :: word, ']' :: rest => some (first :: word, rest)
      | _, _ => none
  | _ => none

/-- A text that begins with a subscript is the subscript and what follows. -/
theorem eq_of_subscript?_eq_some
    {text word rest : List Char}
    (found : subscript? text = some (word, rest)) :
    text = '[' :: word ++ ']' :: rest := by
  unfold subscript? at found
  split at found
  · next inner =>
      split at found
      · next first front after isWord isRest =>
          simp only [Option.some.injEq, Prod.mk.injEq] at found
          obtain ⟨rfl, rfl⟩ := found
          have parts := List.takeWhile_append_dropWhile (p := Text.isWord) (l := inner)
          rw [isWord, isRest] at parts
          rw [← parts]
          rfl
      · exact nomatch found
  · exact nomatch found

/-- The parts of a text: the subscripts in it, from the left, and the characters between. -/
def parts : List Char → List Part
  | [] => []
  | character :: text =>
      match _found : subscript? (character :: text) with
      | some (word, rest) => .subscript word :: parts rest
      | none => .plain character :: parts text
termination_by text => text.length
decreasing_by
  · have split := congrArg List.length (eq_of_subscript?_eq_some _found)
    simp only [List.length_append, List.length_cons] at split ⊢
    omega
  · simp

/-- The text as it is written inside the literal. -/
def escape (text : List Char) : List Char :=
  (parts text).flatMap Part.escaped

end Message
end Conformance
