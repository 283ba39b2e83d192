import Conformance.Proofs.CrossReference.Walk

/-!
# Growth

How many elements of a kind annotation puts into a document: as many as there are anchors of the
kind in the plans of the visited units.
-/

namespace Conformance
namespace CrossReference

open Markup
open Prose (Pattern)

namespace Annotator

section Replace

variable
  {annotator : Annotator}
  {asked : Tag → Bool}
  {replace : ProseUnit → List Node}
  {planOf : ProseUnit → List Planned}
  {isAsked : Planned → Bool}
  (grows : ∀ before node,
    Node.countTags asked (replace (ProseUnit.ofNode annotator.anchorClass before node)) =
      Node.countTagsIn asked node +
        (planOf (ProseUnit.ofNode annotator.anchorClass before node)).countP isAsked)

include grows

theorem countTags_flatMap_unitsFrom (before nodes : List Node) :
    let units := unitsFrom annotator.anchorClass replace before nodes
    Node.countTags asked (units.flatMap replace) =
      Node.countTags asked nodes + (units.flatMap planOf).countP isAsked := by
  intro units
  induction nodes generalizing before with
  | nil => rfl
  | cons node rest inductionHypothesis =>
      have more := grows before node
      have others := inductionHypothesis
        (before ++ replace (ProseUnit.ofNode annotator.anchorClass before node))
      simp only [units, unitsFrom, List.flatMap_cons, Node.countTags_append, Node.countTags,
        List.countP_append] at more others ⊢
      omega

theorem countTags_replaceChild (before : List Node) (node : Node) :
    Node.countTags asked (annotator.replaceChild replace before node) =
      Node.countTagsIn asked node +
        ((annotator.childUnits replace before node).flatMap planOf).countP isAsked := by
  unfold replaceChild childUnits
  cases isSection : annotator.section? node with
  | none => simpa using grows before node
  | some element =>
      have inside := countTags_flatMap_unitsFrom grows [] element.children
      rw [toNode_of_section?_eq_some isSection]
      simp only [replaceSection, Element.toNode, Node.countTags, Node.countTagsIn] at inside ⊢
      omega

theorem countTags_replaceFrom (before nodes : List Node) :
    Node.countTags asked (annotator.replaceFrom replace before nodes) =
      Node.countTags asked nodes +
        ((annotator.bodyUnitsFrom replace before nodes).flatMap planOf).countP isAsked := by
  induction nodes generalizing before with
  | nil => rfl
  | cons node rest inductionHypothesis =>
      have more := countTags_replaceChild grows before node
      have others := inductionHypothesis (before ++ annotator.replaceChild replace before node)
      simp only [replaceFrom, bodyUnitsFrom, Node.countTags_append, Node.countTags,
        List.flatMap_append, List.countP_append] at more others ⊢
      omega

end Replace

variable {annotator : Annotator}

/-- A unit grows by the anchors of its plan. -/
theorem countTags_standIns
    {asked : Tag → Bool}
    (onlyAnchors : ∀ tag, asked tag = true → tag.hasClass annotator.anchorClass = true)
    (coverage : Coverage)
    (candidates : List (SpecAssertion × Pattern))
    (before : List Node)
    (node : Node) :
    Node.countTags asked (annotator.standIns coverage candidates
        (ProseUnit.ofNode annotator.anchorClass before node)) =
      Node.countTagsIn asked node +
        ((ProseUnit.ofNode annotator.anchorClass before node).plan
          annotator.anchorClass candidates).countP fun planned =>
            asked (annotator.anchorTag planned.id planned.keyword) := by
  obtain ⟨sorted, isPerm, inserted⟩ :=
    annotator.insertedAll_standIns coverage candidates before node
  rw [inserted.countTags_eq onlyAnchors, isPerm.countP_eq]
  simp [Node.countTags]

/-- A document grows by the anchors of all plans. -/
theorem countTags_annotate
    {asked : Tag → Bool}
    (onlyAnchors : ∀ tag, asked tag = true → tag.hasClass annotator.anchorClass = true)
    (document : Document)
    (assertions : List SpecAssertion)
    (coverage : Coverage) :
    Node.countTags asked (annotator.annotate document assertions coverage).1.root.children =
      Node.countTags asked document.root.children +
        ((annotator.visits coverage document assertions).flatMap
          (ProseUnit.plan annotator.anchorClass (candidates assertions))).countP fun planned =>
            asked (annotator.anchorTag planned.id planned.keyword) := by
  rw [annotate_fst, Element.modifyChild, visits, units, Document.body?, Element.child?]
  cases isSplit : Element.splitAt? "body" document.root.children with
  | none => simp
  | some parts =>
      obtain ⟨before, body, after⟩ := parts
      have grown := countTags_replaceFrom
        (countTags_standIns onlyAnchors coverage (candidates assertions))
        [] body.children
      rw [(Element.eq_of_splitAt?_eq_some isSplit).1]
      simp only [Option.map_some, Node.countTags_append, Node.countTags, Node.countTagsIn,
        Element.toNode, replaceBody, grown]
      omega

end Annotator

end CrossReference
end Conformance
