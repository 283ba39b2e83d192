import Conformance.Markup.Document
import Conformance.Proofs.Markup.Elements

/-!
# What the preparation of a document keeps

A link to a stylesheet and the marks of HTML change the head and the tag of the root.  The body
stays as it is, and so do the elements of a kind that none of the changes is of.
-/

namespace Conformance
namespace Markup

namespace Tag

theorem lookup_setIn_of_ne
    {name other : String}
    (different : other ≠ name)
    (value : String)
    (attributes : List (String × String)) :
    (setIn name value attributes).lookup other = attributes.lookup other := by
  have notNamed : (other == name) = false := beq_eq_false_iff_ne.2 different
  induction attributes with
  | nil => simp [setIn, List.lookup_cons, notNamed]
  | cons entry rest inductionHypothesis =>
      obtain ⟨key, earlier⟩ := entry
      by_cases isKey : key = name
      · subst isKey
        simp [setIn, List.lookup_cons, notNamed]
      · simp [setIn, isKey, List.lookup_cons, inductionHypothesis]

/-- Giving an attribute a value does not change the others. -/
theorem attribute?_setAttribute_of_ne
    {name other : String}
    (different : other ≠ name)
    (tag : Tag)
    (value : String) :
    (tag.setAttribute name value).attribute? other = tag.attribute? other :=
  lookup_setIn_of_ne different value tag.attributes

/-- Taking an attribute away does not change the others. -/
theorem attribute?_removeAttribute_of_ne
    {name other : String}
    (different : other ≠ name)
    (tag : Tag) :
    (tag.removeAttribute name).attribute? other = tag.attribute? other := by
  have notNamed : (other == name) = false := beq_eq_false_iff_ne.2 different
  simp only [attribute?, removeAttribute]
  induction tag.attributes with
  | nil => rfl
  | cons entry rest inductionHypothesis =>
      obtain ⟨key, value⟩ := entry
      by_cases isKey : key = name
      · subst isKey
        simp [List.lookup_cons, notNamed]
      · simp [isKey, List.lookup_cons, inductionHypothesis]

end Tag

namespace Document

/-- The marks of HTML on a root tag change no attribute but the namespace and the language. -/
theorem attribute?_htmlTag
    {name : String}
    (notNamespace : name ≠ "xmlns")
    (notLanguage : name ≠ "lang")
    (tag : Tag) :
    (htmlTag tag).attribute? name = tag.attribute? name := by
  rw [htmlTag]
  cases (tag.removeAttribute "xmlns").attribute? "xml:lang" with
  | some language =>
      exact (Tag.attribute?_setAttribute_of_ne notLanguage _ language).trans
        (Tag.attribute?_removeAttribute_of_ne notNamespace tag)
  | none => exact Tag.attribute?_removeAttribute_of_ne notNamespace tag

/-- A link to a stylesheet stands in the head and does not change the body. -/
theorem body?_addStylesheet (document : Document) (address : String) :
    (document.addStylesheet address).body? = document.body? := by
  have differentNames : "head" ≠ "body" := by decide
  rw [addStylesheet, modifyHead, body?, body?]
  apply Element.child?_modifyChild_of_ne _ document.root differentNames
  intro head
  rfl

/-- A link to a stylesheet has no class. -/
theorem countTagsIn_stylesheetLink (className address : String) :
    Node.countTagsIn (fun tag => tag.hasClass className) (stylesheetLink address) = 0 := by
  simp only [stylesheetLink, Node.countTagsIn, Node.countTags]
  rw [Tag.hasClass_of_attribute?_eq_none rfl]
  rfl

/-- A link to a stylesheet adds no element of a kind that it is not of. -/
theorem countTags_addStylesheet
    {asked : Tag → Bool}
    {address : String}
    (otherLink : Node.countTagsIn asked (stylesheetLink address) = 0)
    (document : Document) :
    Node.countTags asked [(document.addStylesheet address).root.toNode] =
      Node.countTags asked [document.root.toNode] := by
  have keepsTag : (document.addStylesheet address).root.tag = document.root.tag := by
    rw [addStylesheet, modifyHead, Element.modifyChild]
    split <;> rfl
  have keepsChildren :
      Node.countTags asked (document.addStylesheet address).root.children =
        Node.countTags asked document.root.children := by
    rw [addStylesheet, modifyHead]
    apply Element.countTags_modifyChild
    intro head
    simp [Element.toNode, Node.countTagsIn, Node.countTags, otherLink]
  simp only [Element.toNode, Node.countTags, Node.countTagsIn, keepsTag, keepsChildren]

/-- Preparing a document for HTML keeps the elements of a kind that neither its root and head nor
the declaration of the encoding are of. -/
theorem elements_prepareForHtml
    {asked : Tag → Bool}
    (keepsAsked : ∀ tag, asked (htmlTag tag) = asked tag)
    (otherDeclaration : Node.elementsIn asked encodingDeclaration = [])
    {document : Document}
    (otherRoot : asked document.root.tag = false)
    (otherHead : ∀ head, document.root.child? "head" = some head → asked head.tag = false) :
    Node.elements asked [document.prepareForHtml.root.toNode] =
      Node.elements asked [document.root.toNode] := by
  have keepsTag : document.prepareForHtml.root.tag = htmlTag document.root.tag := by
    rw [prepareForHtml, modifyHead, Element.modifyChild]
    split <;> rfl
  have keepsChildren :
      Node.elements asked document.prepareForHtml.root.children =
        Node.elements asked document.root.children := by
    rw [prepareForHtml, modifyHead]
    apply Element.elements_modifyChild
    intro head isHead
    have notAsked : asked head.tag = false := otherHead head isHead
    simp [Element.toNode, Node.elementsIn, Node.elements, notAsked, otherDeclaration]
  simp only [Element.toNode, Node.elements, Node.elementsIn, keepsTag, keepsChildren, keepsAsked,
    otherRoot, Bool.false_eq_true, if_false]

end Document

end Markup
end Conformance
