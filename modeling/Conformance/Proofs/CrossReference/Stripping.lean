import Conformance.Proofs.CrossReference.Walk

/-!
# Stripping the anchors

Taking all anchors out of an annotated document gives the document without the anchors that it
had before, up to the division of its text.  Annotation changes nothing outside the body.
-/

namespace Conformance
namespace CrossReference

open Markup
open Prose (Pattern)

/-- Whether two documents differ at most inside the first body: without one they are equal, and
otherwise their bodies have the same tag and stand in the same place among the same nodes. -/
def AgreeOutsideBody (first second : Document) : Prop :=
  first.root.tag = second.root.tag ∧
    match Element.splitAt? "body" first.root.children with
    | some (before, body, after) =>
        ∃ children,
          second.root.children = before ++ (Element.mk body.tag children).toNode :: after ∧
          Element.splitAt? "body" second.root.children =
            some (before, ⟨body.tag, children⟩, after)
    | none => second = first

namespace Annotator

section Replace

variable
  {annotator : Annotator}
  {replace : ProseUnit → List Node}
  (equivalent : ∀ before node,
    TextEquivalent
      (Node.stripAll annotator.anchorClass
        (replace (ProseUnit.ofNode annotator.anchorClass before node)))
      (Node.stripAll annotator.anchorClass [node]))

include equivalent

theorem textEquivalent_flatMap_unitsFrom (before nodes : List Node) :
    TextEquivalent
      (Node.stripAll annotator.anchorClass
        ((unitsFrom annotator.anchorClass replace before nodes).flatMap replace))
      (Node.stripAll annotator.anchorClass nodes) := by
  induction nodes generalizing before with
  | nil => exact .refl _
  | cons node rest inductionHypothesis =>
      rw [unitsFrom, List.flatMap_cons, Node.stripAll_append, ← List.singleton_append,
        Node.stripAll_append]
      exact .append (equivalent before node) (inductionHypothesis _)

theorem textEquivalent_replaceChild (before : List Node) (node : Node) :
    TextEquivalent
      (Node.stripAll annotator.anchorClass (annotator.replaceChild replace before node))
      (Node.stripAll annotator.anchorClass [node]) := by
  unfold replaceChild
  cases isSection : annotator.section? node with
  | none => exact equivalent before node
  | some element =>
      rw [toNode_of_section?_eq_some isSection]
      exact textEquivalent_stripAll_element element.tag
        (textEquivalent_flatMap_unitsFrom equivalent [] element.children)

theorem textEquivalent_replaceFrom (before nodes : List Node) :
    TextEquivalent
      (Node.stripAll annotator.anchorClass (annotator.replaceFrom replace before nodes))
      (Node.stripAll annotator.anchorClass nodes) := by
  induction nodes generalizing before with
  | nil => exact .refl _
  | cons node rest inductionHypothesis =>
      rw [replaceFrom, Node.stripAll_append, ← List.singleton_append, Node.stripAll_append]
      exact .append (textEquivalent_replaceChild equivalent before node) (inductionHypothesis _)

end Replace

/-- A unit and its stand-ins are equivalent without anchors. -/
theorem textEquivalent_standIns
    {annotator : Annotator}
    (isToken : Text.IsToken annotator.anchorClass)
    (coverage : Coverage)
    (candidates : List (SpecAssertion × Pattern))
    (before : List Node)
    (node : Node) :
    TextEquivalent
      (Node.stripAll annotator.anchorClass (annotator.standIns coverage candidates
        (ProseUnit.ofNode annotator.anchorClass before node)))
      (Node.stripAll annotator.anchorClass [node]) := by
  obtain ⟨_, _, inserted⟩ :=
    annotator.insertedAll_standIns coverage candidates before node
  exact inserted.textEquivalent_stripAll isToken

theorem textEquivalent_annotate
    {annotator : Annotator}
    (isToken : Text.IsToken annotator.anchorClass)
    (document : Document)
    (assertions : List SpecAssertion)
    (coverage : Coverage) :
    TextEquivalent
      (Node.stripAll annotator.anchorClass
        (annotator.annotate document assertions coverage).1.root.children)
      (Node.stripAll annotator.anchorClass document.root.children) := by
  rw [annotate_fst, Element.modifyChild]
  cases isSplit : Element.splitAt? "body" document.root.children with
  | none => exact .refl _
  | some parts =>
      obtain ⟨before, body, after⟩ := parts
      rw [(Element.eq_of_splitAt?_eq_some isSplit).1]
      have bodies := textEquivalent_stripAll_element body.tag
        (textEquivalent_replaceFrom
          (textEquivalent_standIns isToken coverage (Annotator.candidates assertions))
          [] body.children)
      have around := (Surroundings.siblings before after).textEquivalent_stripAll_fill bodies
      simpa [Surroundings.fill, replaceBody, Element.toNode] using around

/-- An annotated document differs from the document at most inside the body. -/
theorem agreeOutsideBody_annotate
    (annotator : Annotator)
    (document : Document)
    (assertions : List SpecAssertion)
    (coverage : Coverage) :
    AgreeOutsideBody document (annotator.annotate document assertions coverage).1 := by
  rw [annotate_fst, AgreeOutsideBody, Element.modifyChild]
  cases isSplit : Element.splitAt? "body" document.root.children with
  | none => exact ⟨rfl, rfl⟩
  | some parts =>
      obtain ⟨before, body, after⟩ := parts
      have named := (Element.eq_of_splitAt?_eq_some isSplit).2
      exact ⟨rfl, _, rfl, Element.splitAt?_append_cons isSplit named⟩

/-- Taking the anchors out of an annotated document and out of the document gives the same, up to
the division of text; so it does not matter for text and markup.  Only the body is changed. -/
theorem annotate_then_strip
    (annotator : Annotator)
    (isToken : Text.IsToken annotator.anchorClass)
    (document : Document)
    (assertions : List SpecAssertion)
    (coverage : Coverage) :
    let annotated := (annotator.annotate document assertions coverage).1
    let stripped := annotated.root.strip annotator.anchorClass
    let bare := document.root.strip annotator.anchorClass
    TextEquivalent [stripped.toNode] [bare.toNode] ∧
      stripped.textContent = bare.textContent ∧
      (Document.mk stripped).toHtml = (Document.mk bare).toHtml ∧
      (Node.countAll annotator.anchorClass document.root.children = 0 →
        stripped.textContent = document.root.textContent ∧
        (Document.mk stripped).toHtml = document.toHtml) ∧
      AgreeOutsideBody document annotated := by
  intro annotated stripped bare
  have children := textEquivalent_annotate isToken document assertions coverage
  have agree := agreeOutsideBody_annotate annotator document assertions coverage
  have roots : TextEquivalent [stripped.toNode] [bare.toNode] := by
    have sameTag : stripped.tag = bare.tag := agree.1.symm
    rw [Element.toNode, sameTag]
    exact .element bare.tag children
  have sameText : stripped.textContent = bare.textContent := children.textContents_eq
  have sameHtml : (Document.mk stripped).toHtml = (Document.mk bare).toHtml := by
    have written := roots.html_eq false
    simp only [Html.nodes, List.append_nil] at written
    rw [Document.toHtml, Document.toHtml, Html.document, Html.document, written]
  refine ⟨roots, sameText, sameHtml, ?_, agree⟩
  intro absent
  have bare_eq : bare = document.root := by
    simp only [bare, Element.strip, Node.stripAll_eq_self _ _ absent]
  rw [sameText, sameHtml, bare_eq]
  exact ⟨rfl, rfl⟩

/-- A paragraph that gets an anchor loses it again. -/
theorem annotate_then_strip_paragraph :
    let annotator : Annotator := {}
    let paragraph : Node := .element { name := "p" } [.text "It must draw."]
    let document : Document :=
      ⟨{ name := "html" }, [.element { name := "body" } [paragraph]]⟩
    let assertions : List SpecAssertion := [{ id := "draw", text := "must<^> draw" }]
    let annotated := (annotator.annotate document assertions {}).1
    Text.IsToken annotator.anchorClass ∧
      Node.countAll annotator.anchorClass document.root.children = 0 ∧
      (Document.mk (annotated.root.strip annotator.anchorClass)).toHtml = document.toHtml := by
  intro annotator paragraph document assertions annotated
  have isToken : Text.IsToken annotator.anchorClass := by decide
  have absent : Node.countAll annotator.anchorClass document.root.children = 0 := by decide
  have stripped := annotate_then_strip annotator isToken document assertions {}
  exact ⟨isToken, absent, (stripped.2.2.2.1 absent).2⟩

end Annotator

end CrossReference
end Conformance
