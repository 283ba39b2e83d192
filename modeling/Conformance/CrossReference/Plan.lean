import Conformance.CrossReference.Anchor
import Conformance.Prose.Pattern

/-!
# Planning anchors in one unit

A unit is a node whose text is searched as a whole.  First every pattern is looked for in the text
as it stands; the matches that find their place free make up the plan.  Then the planned anchors
are put in, from the beginning of the text on.
-/

namespace Conformance
namespace CrossReference

open Markup
open Prose (Pattern)

/-- An anchor that will be put in. -/
structure Planned where
  /-- The byte position in the text of the unit. -/
  offset : Nat
  /-- The assertion. -/
  id : String
  /-- The requirement level of the assertion. -/
  keyword : Keyword
deriving DecidableEq, Inhabited, Repr

/-- The unit that is looked at, with its text and the siblings before it. -/
structure ProseUnit where
  /-- The siblings before the unit, with the anchors that were put into them. -/
  before : List Node
  /-- The unit itself. -/
  node : Node
  /-- The text of the unit. -/
  index : TextIndex
deriving Inhabited

namespace ProseUnit

/-- The unit that stands behind some siblings. -/
def ofNode (anchorClass : String) (before : List Node) (node : Node) : ProseUnit where
  before := before
  node := node
  index := TextIndex.ofNodes anchorClass [node]

/-- The node some places before the unit; the first sibling if there are not so many. -/
def sibling (unit : ProseUnit) (distance : Nat) : Node :=
  let start := unit.before.length
  (unit.before ++ [unit.node]).getD (start - min distance start) unit.node

/-- Whether a back-reference is satisfied for a match in the unit. -/
def satisfies (anchorClass : String) (unit : ProseUnit) (reference : BackReference) : Bool :=
  reference.accepts (TextIndex.ofNodes anchorClass [unit.sibling reference.siblings]).text

/-- The offset at which an assertion is accepted: its pattern is found, the unit has a text node,
and the back-reference is satisfied. -/
def acceptedAt?
    (anchorClass : String)
    (unit : ProseUnit)
    (assertion : SpecAssertion)
    (pattern : Pattern) :
    Option Nat :=
  (pattern.anchorOffset? unit.index.text).filter fun offset =>
    (unit.index.locate? offset).isSome && assertion.previously.all (unit.satisfies anchorClass)

end ProseUnit

/-- What stands at the place where an assertion is found. -/
inductive Place where
  /-- Nothing: an anchor can be put there. -/
  | free
  /-- The anchor of the assertion. -/
  | own
  /-- An anchor that is planned or stands there for another assertion, if it names one. -/
  | taken (owner : Option String)
deriving DecidableEq, Inhabited, Repr

/-- What stands at an offset of a unit when some anchors are planned already. -/
def ProseUnit.place (unit : ProseUnit) (plan : List Planned) (id : String) (offset : Nat) : Place :=
  match plan.find? fun planned => planned.offset == offset with
  | some planned => .taken (some planned.id)
  | none =>
      match unit.index.anchorAt? offset with
      | some site => if site.assertion = some id then .own else .taken site.assertion
      | none => .free

/-- The plan for a unit, and what is known about the assertions. -/
structure Planning where
  /-- The planned anchors in the order of their assertions. -/
  plan : List Planned := []
  /-- What is known so far. -/
  findings : Findings
deriving Inhabited

namespace Planning

/-- Continues with an assertion that is accepted at an offset. -/
def accept
    (planning : Planning)
    (unit : ProseUnit)
    (id : String)
    (keyword : Keyword)
    (offset : Nat) :
    Planning :=
  let seen := planning.findings.outcomes.contains id
  let place := unit.place planning.plan id offset
  let again := if seen then [Warning.matchedMultiple id none] else []
  let conflict :=
    match place with
    | .taken (some owner) => [Warning.matchedMultiple id (some owner)]
    | _ => []
  let outcome : Outcome :=
    if seen then .matchedMultiple else if place = .free then .annotated else .located
  let findings := { planning.findings with
    outcomes := planning.findings.outcomes.insert id outcome
    warnings := planning.findings.warnings ++ again ++ conflict }
  { plan := if place = .free then planning.plan ++ [⟨offset, id, keyword⟩] else planning.plan
    findings := findings }

/-- Continues with the pattern of an assertion. -/
def step
    (anchorClass : String)
    (unit : ProseUnit)
    (planning : Planning)
    (candidate : SpecAssertion × Pattern) :
    Planning :=
  match unit.acceptedAt? anchorClass candidate.1 candidate.2 with
  | some offset => planning.accept unit candidate.1.id candidate.2.keyword offset
  | none => planning

end Planning

/-- Nodes into which anchors are being put, and the text nodes that were divided. -/
structure Insertion where
  /-- The nodes. -/
  nodes : List Node
  /-- The divisions so far. -/
  divisions : List Division := []
deriving Inhabited

namespace Annotator

/-- Puts a planned anchor in its place. -/
def put
    (annotator : Annotator)
    (coverage : Coverage)
    (insertion : Insertion)
    (planned : Planned) :
    Insertion :=
  match (TextIndex.ofNodes annotator.anchorClass insertion.nodes).locate? planned.offset with
  | some (segment, position) =>
      let anchor := annotator.anchor coverage planned.id planned.keyword
      { nodes := insertAt anchor position segment.path insertion.nodes
        divisions :=
          insertion.divisions ++ divisionAt position segment.path insertion.nodes }
  | none => insertion

/-- Puts the planned anchors in their places, from the smallest offset on. -/
def putAll
    (annotator : Annotator)
    (coverage : Coverage)
    (plan : List Planned)
    (node : Node) :
    Insertion :=
  (plan.mergeSort fun first second => decide (first.offset ≤ second.offset)).foldl
    (annotator.put coverage) { nodes := [node] }

/-- Annotates the unit behind some siblings.  The nodes of the result stand for the unit: a text
node is divided into several. -/
def annotateUnit
    (annotator : Annotator)
    (coverage : Coverage)
    (candidates : List (SpecAssertion × Pattern))
    (before : List Node)
    (node : Node)
    (findings : Findings) :
    List Node × Findings :=
  let unit := ProseUnit.ofNode annotator.anchorClass before node
  let planning := candidates.foldl (Planning.step annotator.anchorClass unit)
    { findings := findings }
  let insertion := annotator.putAll coverage planning.plan node
  (insertion.nodes,
    { planning.findings with
      divisions := planning.findings.divisions ++ insertion.divisions })

end Annotator

end CrossReference
end Conformance
