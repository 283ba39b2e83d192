import Conformance.Value

/-!
# Requirement levels

The keyword that tells how strongly a statement of the standard binds.
-/

namespace Conformance

/-- The requirement level of a statement. -/
inductive Keyword where
  | must
  | should
  | required
  /-- The statement names no level. -/
  | none
deriving DecidableEq, Inhabited, Repr

namespace Keyword

/-- The keyword as it is written. -/
def text : Keyword → String
  | .must => "must"
  | .should => "should"
  | .required => "required"
  | .none => "none"

/-- The keyword that is written so. -/
def ofText? : String → Option Keyword
  | "must" => some .must
  | "should" => some .should
  | "required" => some .required
  | "none" => some .none
  | _ => Option.none

/-- A keyword is read back from its text. -/
@[simp]
theorem ofText?_text (keyword : Keyword) : ofText? keyword.text = some keyword := by
  cases keyword <;> rfl

/-- The keywords that can be marked in prose, in the order in which they are looked for. -/
def marked : List Keyword :=
  [.must, .should, .required]

/-- Reads a keyword. -/
def ofValue? (value : Value) : Option Keyword :=
  value.toName?.bind ofText?

/-- Writes a keyword. -/
def toValue (keyword : Keyword) : Value :=
  .string keyword.text

end Keyword

end Conformance
