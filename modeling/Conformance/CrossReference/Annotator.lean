import Conformance.CrossReference.Plan
import Conformance.Markup.Document
import Conformance.Value.Record

/-!
# Annotating a document

The body is walked one unit at a time: each of its children is a unit, except that the children of
an implementation section are units of their own.  Nodes that come to stand for a unit are not
looked at again.
-/

namespace Conformance
namespace CrossReference

open Markup
open Prose (Pattern)

namespace Annotator

/-- Annotates units one after the other.  `before` holds the siblings that are finished. -/
def annotateUnits
    (annotator : Annotator)
    (coverage : Coverage)
    (candidates : List (SpecAssertion × Pattern))
    (before : List Node) :
    List Node → Findings → List Node × Findings
  | [], findings => (before, findings)
  | unit :: rest, findings =>
      let (nodes, findings) := annotator.annotateUnit coverage candidates before unit findings
      annotateUnits annotator coverage candidates (before ++ nodes) rest findings

/-- The implementation section that a node is. -/
def section? (annotator : Annotator) (node : Node) : Option Element :=
  node.toElement?.filter fun element =>
    element.tag.attribute? "class" == some annotator.implementationClass

/-- Annotates the children of the body.  `before` holds those that are finished. -/
def annotateBody
    (annotator : Annotator)
    (coverage : Coverage)
    (candidates : List (SpecAssertion × Pattern))
    (before : List Node) :
    List Node → Findings → List Node × Findings
  | [], findings => (before, findings)
  | node :: rest, findings =>
      match annotator.section? node with
      | some element =>
          let (children, findings) :=
            annotator.annotateUnits coverage candidates [] element.children findings
          let finished := Element.toNode { element with children := children }
          annotateBody annotator coverage candidates (before ++ [finished]) rest findings
      | none =>
          let (nodes, findings) :=
            annotator.annotateUnit coverage candidates before node findings
          annotateBody annotator coverage candidates (before ++ nodes) rest findings

/-- The assertions with their patterns. -/
def candidates (assertions : List SpecAssertion) : List (SpecAssertion × Pattern) :=
  assertions.filterMap fun assertion =>
    match Pattern.ofAssertion assertion with
    | .ok pattern => some (assertion, pattern)
    | .error _ => none

/-- Why some assertions have no pattern. -/
def failures (assertions : List SpecAssertion) : List Error :=
  assertions.filterMap fun assertion =>
    match Pattern.ofAssertion assertion with
    | .ok _ => none
    | .error error => some error

/-- Notes, after the walk, whether an assertion was not found and whether it is unclaimed. -/
def review
    (coverage : Coverage)
    (findings : Findings)
    (assertion : SpecAssertion) :
    Findings :=
  let id := assertion.id
  let outcome := (findings.outcome? id).getD .unmatched
  { findings with
    outcomes := findings.outcomes.insert id outcome
    warnings :=
      if outcome = .unmatched then findings.warnings ++ [.unmatched id]
      else findings.warnings
    unclaimed :=
      if coverage.isClaimed id then findings.unclaimed else findings.unclaimed ++ [id] }

/-- Walks the body of a document, if it has one. -/
def walk
    (annotator : Annotator)
    (document : Document)
    (coverage : Coverage)
    (candidates : List (SpecAssertion × Pattern))
    (findings : Findings) :
    Document × Findings :=
  match Element.splitAt? "body" document.root.children with
  | some (before, body, after) =>
      let (children, findings) :=
        annotator.annotateBody coverage candidates [] body.children findings
      let annotated := Element.toNode { body with children := children }
      (⟨{ document.root with children := before ++ annotated :: after }⟩, findings)
  | none => (document, findings)

/-- Puts an anchor into the document for every assertion that is found, with links to the tests
that claim it. -/
def annotate
    (annotator : Annotator)
    (document : Document)
    (assertions : List SpecAssertion)
    (coverage : Coverage) :
    Document × Findings :=
  let (annotated, findings) :=
    annotator.walk document coverage (candidates assertions)
      { failures := failures assertions }
  (annotated, assertions.foldl (review coverage) findings)

/-- The names of the settings in their fixed order. -/
def fieldNames : List String :=
  ["anchor_class", "implementation_class", "test_link_suffix"]

/-- Reads the settings. -/
def ofValue? (value : Value) : Option Annotator := do
  let record ← Record.ofValue? fieldNames value
  let standard : Annotator := {}
  return {
    anchorClass := ← record.withDefault "anchor_class" standard.anchorClass Value.toText?
    implementationClass := ← record.withDefault "implementation_class"
      standard.implementationClass Value.toText?
    testLinkSuffix := ← record.withDefault "test_link_suffix"
      standard.testLinkSuffix Value.toText? }

/-- Writes the settings. -/
def toValue (annotator : Annotator) : Value :=
  .table [
    ("anchor_class", .string annotator.anchorClass),
    ("implementation_class", .string annotator.implementationClass),
    ("test_link_suffix", .string annotator.testLinkSuffix)]

end Annotator

end CrossReference
end Conformance
