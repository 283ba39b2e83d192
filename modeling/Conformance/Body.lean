import Conformance.Directive.Reader

/-!
# Test bodies

A body is plain code with directives in it.  Looked at for the directives of one stage it falls
into pieces, which make up the body again.
-/

namespace Conformance
namespace Body

/-- A piece of a body. -/
inductive Piece where
  /-- A character that belongs to no directive. -/
  | plain (character : Char)
  /-- A directive. -/
  | active (directive : Directive)
deriving DecidableEq, Repr

/-- A piece as it is written. -/
def Piece.source : Piece → List Char
  | .plain character => [character]
  | .active directive => directive.source

/-- The pieces of a body.  The directives of the stage are taken from the left. -/
def pieces (stage : Stage) : List Char → List Piece
  | [] => []
  | character :: text =>
      match _found : Directive.read? stage (character :: text) with
      | some (directive, rest) => .active directive :: pieces stage rest
      | none => .plain character :: pieces stage text
termination_by text => text.length
decreasing_by
  · exact Directive.length_lt_of_read?_eq_some _found
  · simp

/-- The pieces make up the body. -/
theorem flatMap_source_pieces (stage : Stage) (text : List Char) :
    (pieces stage text).flatMap Piece.source = text := by
  fun_induction pieces stage text with
  | case1 => rfl
  | case2 character text directive rest found inductionHypothesis =>
      rw [List.flatMap_cons, inductionHypothesis]
      exact (Directive.eq_source_append_of_read?_eq_some found).symm
  | case3 character text found inductionHypothesis =>
      rw [List.flatMap_cons, inductionHypothesis]
      rfl

end Body
end Conformance
