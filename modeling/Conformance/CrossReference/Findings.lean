import Conformance.Error
import Conformance.NameMap
import Conformance.Text.ByteSize

/-!
# Findings of a pass

What one pass of the annotator over a document finds out.
-/

namespace Conformance
namespace CrossReference

/-- What became of an assertion. -/
inductive Outcome where
  /-- It was found once and got an anchor. -/
  | annotated
  /-- It was found once, where an anchor stands already. -/
  | located
  /-- It was found in more than one place. -/
  | matchedMultiple
  /-- It was not found. -/
  | unmatched
deriving DecidableEq, Inhabited, Repr

namespace Outcome

/-- The name of an outcome. -/
def name : Outcome → String
  | .annotated => "annotated"
  | .located => "located"
  | .matchedMultiple => "matched_multiple"
  | .unmatched => "unmatched"

/-- The outcome of that name. -/
def ofName? : String → Option Outcome
  | "annotated" => some .annotated
  | "located" => some .located
  | "matched_multiple" => some .matchedMultiple
  | "unmatched" => some .unmatched
  | _ => none

/-- An outcome is found by its name. -/
@[simp]
theorem ofName?_name (outcome : Outcome) : ofName? outcome.name = some outcome := by
  cases outcome <;> rfl

/-- Whether the assertion was found at all. -/
def isMatched (outcome : Outcome) : Bool :=
  outcome != .unmatched

end Outcome

/-- What is reported about an assertion. -/
inductive Warning where
  /-- It was found again, or at a place that another assertion has. -/
  | matchedMultiple (id : String) (conflictingWith : Option String)
  /-- It was not found. -/
  | unmatched (id : String)
deriving DecidableEq, Inhabited, Repr

/-- Whether a warning says that an assertion was found in several places. -/
def Warning.isMatchedMultiple (id : String) : Warning → Bool
  | .matchedMultiple warned _ => warned == id
  | .unmatched _ => false

/-- The division of a text node that made place for an anchor. -/
structure Division where
  /-- The text that was divided. -/
  content : String
  /-- The byte position at which it was divided. -/
  position : Nat
deriving DecidableEq, Inhabited, Repr

/-- Whether a division falls between two characters. -/
def Division.isClean (division : Division) : Bool :=
  Text.isBoundary division.position division.content.toList

/-- What a pass finds out. -/
structure Findings where
  /-- What became of each assertion. -/
  outcomes : NameMap Outcome := ∅
  /-- The warnings in the order in which they arose. -/
  warnings : List Warning := []
  /-- The assertions that no test claims. -/
  unclaimed : List String := []
  /-- The assertions without a pattern that could be looked for. -/
  failures : List Error := []
  /-- The text nodes that were divided. -/
  divisions : List Division := []
deriving Inhabited

namespace Findings

/-- What became of an assertion. -/
def outcome? (findings : Findings) (id : String) : Option Outcome :=
  findings.outcomes.get? id

/-- Whether an assertion was found in several places, or where another one has its anchor. -/
def isMatchedMultiple (findings : Findings) (id : String) : Bool :=
  findings.outcome? id == some .matchedMultiple ||
    findings.warnings.any (Warning.isMatchedMultiple id)

/-- The ids of the assertions, in order, whose outcome satisfies a condition. -/
def idsWhere (findings : Findings) (condition : Outcome → Bool) : List String :=
  (findings.outcomes.sorted.filter fun (_, outcome) => condition outcome).map Prod.fst

/-- The assertions that were not found, in order of their ids. -/
def unmatched (findings : Findings) : List String :=
  findings.idsWhere (· == .unmatched)

/-- The assertions that were found, in order of their ids. -/
def matched (findings : Findings) : List String :=
  findings.idsWhere Outcome.isMatched

/-- The assertions that were found in several places, in order of their ids. -/
def matchedMultiple (findings : Findings) : List String :=
  (findings.outcomes.sorted.map Prod.fst).filter findings.isMatchedMultiple

/-- Whether every text node was divided between two characters. -/
def isClean (findings : Findings) : Bool :=
  findings.divisions.all Division.isClean

end Findings

end CrossReference
end Conformance
