import Conformance.Text.Blank
import Conformance.Text.Literal
import Conformance.Text.Search

/-!
# Boundary calls

A call is tried at its boundaries: with each invalid value of each argument alone, and with every
combination of two or more arguments at their first invalid value.  An argument that is written
`<v a b>` has the valid value `v` and the invalid values `a` and `b`.
-/

namespace Conformance
namespace Boundary

open scoped Text

/-- The values that one argument of a call is tried with. -/
structure Argument (α : Type) where
  /-- The value that is in order. -/
  valid : α
  /-- The values that are not. -/
  invalid : List α
deriving DecidableEq, Repr

variable {α : Type}

/-- The argument with the given values, the valid one first. -/
def Argument.ofList? : List α → Option (Argument α)
  | [] => none
  | valid :: invalid => some ⟨valid, invalid⟩

/-- The arguments with the given values.  There has to be an argument, and each one needs a valid
value. -/
def arguments? (values : List (List α)) : Option (List (Argument α)) :=
  if values.isEmpty then none else values.mapM Argument.ofList?

/-- The calls in which a single argument is invalid, by its position and then by its values. -/
def singles : List (Argument α) → List (List α)
  | [] => []
  | argument :: others =>
      argument.invalid.map (· :: others.map Argument.valid) ++
        (singles others).map (argument.valid :: ·)

/-- The calls in which several arguments have their first invalid value, the positions in
lexicographic order.  `substituted` tells whether an earlier argument is invalid already, so that
one more makes several. -/
def combinations (substituted : Bool) : List (Argument α) → List (List α)
  | [] => []
  | argument :: others =>
      let withInvalid :=
        match argument.invalid with
        | [] => []
        | value :: _ =>
            (if substituted then [value :: others.map Argument.valid] else []) ++
              (combinations true others).map (value :: ·)
      withInvalid ++ (combinations substituted others).map (argument.valid :: ·)

/-- The calls at the boundaries of the arguments. -/
def calls (arguments : List (Argument α)) : List (List α) :=
  singles arguments ++ combinations false arguments

/-- The text of a call with the given values. -/
def callText (callable tail : List Char) (values : List (List Char)) : List Char :=
  callable ++ "(" ++ List.intercalate ", " values ++ ")" ++ tail

/-- The texts of the calls at the boundaries, unless some argument is missing. -/
def expand?
    (callable : List Char)
    (values : List (List (List Char)))
    (tail : List Char) :
    Option (List (List Char)) :=
  (arguments? values).map fun arguments => (calls arguments).map (callText callable tail)

/-- The values of one written argument.  Without angle brackets the text is the only value. -/
def readArgument (text : List Char) : List (List Char) :=
  match text with
  | '<' :: inner =>
      match Text.splitLast? [ '>' ] inner with
      | some (values, _) => values.splitOn ' '
      | none => [text]
  | _ => [text]

/-- The values of the arguments in a written list. -/
def readArguments (text : List Char) : List (List (List Char)) :=
  if text.all Text.isBlank then [] else (Text.pieces ", " text).map readArgument

example :
    calls [⟨0, [1]⟩, ⟨0, [2, 3]⟩, ⟨0, [4]⟩] =
      [[1, 0, 0], [0, 2, 0], [0, 3, 0], [0, 0, 4],
       [1, 2, 0], [1, 2, 4], [1, 0, 4], [0, 2, 4]] := by
  decide

end Boundary
end Conformance
