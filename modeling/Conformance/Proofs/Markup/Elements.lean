import Conformance.Proofs.Markup.Children
import Conformance.Proofs.Markup.Pairing

/-!
# Listing elements

The elements of a kind, at any depth, in document order.  If a run of siblings consists of bare
ones and added nodes, and no bare element is of the kind, then those of the kind stand in the added
nodes.
-/

namespace Conformance
namespace Markup
namespace Node

mutual

/-- The elements, the node itself included, that have a tag that is asked for. -/
def elementsIn (asked : Tag → Bool) : Node → List Element
  | .element tag children => (if asked tag then [⟨tag, children⟩] else []) ++ elements asked children
  | .text _ => []
  | .comment _ => []

/-- The elements among some nodes and at any depth inside that have a tag that is asked for. -/
def elements (asked : Tag → Bool) : List Node → List Element
  | [] => []
  | node :: rest => elementsIn asked node ++ elements asked rest

end

variable {asked : Tag → Bool}

@[simp]
theorem elements_append (front back : List Node) :
    elements asked (front ++ back) = elements asked front ++ elements asked back := by
  induction front with
  | nil => rfl
  | cons node front inductionHypothesis =>
      simp only [List.cons_append, elements, inductionHypothesis, List.append_assoc]

mutual

theorem length_elementsIn :
    (node : Node) → (elementsIn asked node).length = countTagsIn asked node
  | .element tag children => by
      rw [elementsIn, countTagsIn, List.length_append, length_elements children]
      split <;> rfl
  | .text _ => rfl
  | .comment _ => rfl

/-- As many elements are listed as are counted. -/
theorem length_elements :
    (nodes : List Node) → (elements asked nodes).length = countTags asked nodes
  | [] => rfl
  | node :: rest => by
      rw [elements, countTags, List.length_append, length_elementsIn node, length_elements rest]

end

/-- An element that holds no element of a kind is the only one in itself. -/
theorem elementsIn_of_countTagsIn_eq_one
    {element : Element}
    (isAsked : asked element.tag = true)
    (once : countTagsIn asked element.toNode = 1) :
    elementsIn asked element.toNode = [element] := by
  rw [Element.toNode, countTagsIn, if_pos isAsked] at once
  have inside : elements asked element.children = [] := by
    rw [← List.length_eq_zero_iff, length_elements]
    omega
  rw [Element.toNode, elementsIn, if_pos isAsked, inside]
  rfl

mutual

theorem countTagsIn_eq_zero_of_imp
    {other : Tag → Bool}
    (implies : ∀ tag, asked tag = true → other tag = true) :
    (node : Node) → countTagsIn other node = 0 → countTagsIn asked node = 0
  | .element tag children, absent => by
      rw [countTagsIn, Nat.add_eq_zero_iff] at absent
      have notAsked : ¬asked tag = true := by
        intro isAsked
        rw [if_pos (implies tag isAsked)] at absent
        omega
      rw [countTagsIn, if_neg notAsked, countTags_eq_zero_of_imp implies children absent.2]
  | .text _, _ => rfl
  | .comment _, _ => rfl

/-- Where no element is of a kind, none is of a narrower one. -/
theorem countTags_eq_zero_of_imp
    {other : Tag → Bool}
    (implies : ∀ tag, asked tag = true → other tag = true) :
    (nodes : List Node) → countTags other nodes = 0 → countTags asked nodes = 0
  | [], _ => rfl
  | node :: rest, absent => by
      rw [countTags, Nat.add_eq_zero_iff] at absent
      rw [countTags, countTagsIn_eq_zero_of_imp implies node absent.1,
        countTags_eq_zero_of_imp implies rest absent.2]

end

end Node

/-- Text equivalent nodes have as many elements of every kind. -/
theorem TextEquivalent.countTags_eq
    {first second : List Node}
    (equivalent : TextEquivalent first second)
    (asked : Tag → Bool) :
    Node.countTags asked first = Node.countTags asked second := by
  induction equivalent with
  | refl nodes => rfl
  | symm _ inductionHypothesis => exact inductionHypothesis.symm
  | trans _ _ firstHypothesis secondHypothesis => exact firstHypothesis.trans secondHypothesis
  | dropEmpty => rfl
  | merge front back => rfl
  | append _ _ frontHypothesis backHypothesis =>
      rw [Node.countTags_append, Node.countTags_append, frontHypothesis, backHypothesis]
  | element tag _ inductionHypothesis =>
      simp only [Node.countTags, Node.countTagsIn, inductionHypothesis]

/-- Elements of a kind that no bare element is of stand in added nodes. -/
theorem Paired.exists_of_mem_elements
    {related : Node → Node → Prop}
    {asked : Tag → Bool}
    {bare first second : List Node}
    (paired : Paired related bare first second)
    (absent : Node.countTags asked bare = 0)
    {element : Element}
    (listed : element ∈ Node.elements asked first) :
    ∃ firstNode secondNode, related firstNode secondNode ∧
      element ∈ Node.elementsIn asked firstNode := by
  induction paired with
  | nil => cases listed
  | text content _ inductionHypothesis
  | comment content _ inductionHypothesis =>
      simp only [Node.countTags, Node.countTagsIn, Nat.zero_add] at absent
      exact inductionHypothesis absent listed
  | element tag _ _ insideHypothesis inductionHypothesis =>
      rw [Node.countTags, Node.countTagsIn] at absent
      have notAsked : ¬asked tag = true := by
        intro isAsked
        rw [if_pos isAsked] at absent
        omega
      rw [Node.elements, Node.elementsIn, if_neg notAsked, List.nil_append] at listed
      rcases List.mem_append.1 listed with inside | behind
      · exact insideHypothesis (by omega) inside
      · exact inductionHypothesis (by omega) behind
  | added isRelated _ inductionHypothesis =>
      rcases List.mem_append.1 listed with here | behind
      · exact ⟨_, _, isRelated, here⟩
      · exact inductionHypothesis absent behind

namespace Element

/-- Changing a child keeps the number of elements of a kind if it keeps that in the child. -/
theorem countTags_modifyChild
    {asked : Tag → Bool}
    {change : Element → Element}
    (keeps : ∀ found,
      Node.countTagsIn asked (change found).toNode = Node.countTagsIn asked found.toNode)
    (element : Element)
    (name : String) :
    Node.countTags asked (element.modifyChild name change).children =
      Node.countTags asked element.children := by
  rw [modifyChild]
  cases isSplit : splitAt? name element.children with
  | none => rfl
  | some parts =>
      obtain ⟨before, found, after⟩ := parts
      rw [(eq_of_splitAt?_eq_some isSplit).1]
      simp only [Node.countTags_append, Node.countTags, keeps]

/-- Changing a child keeps the elements of a kind if it keeps those of the child. -/
theorem elements_modifyChild
    {asked : Tag → Bool}
    {change : Element → Element}
    {element : Element}
    {name : String}
    (keeps : ∀ found, element.child? name = some found →
      Node.elementsIn asked (change found).toNode = Node.elementsIn asked found.toNode) :
    Node.elements asked (element.modifyChild name change).children =
      Node.elements asked element.children := by
  rw [modifyChild]
  cases isSplit : splitAt? name element.children with
  | none => rfl
  | some parts =>
      obtain ⟨before, found, after⟩ := parts
      have kept := keeps found (by rw [child?, isSplit]; rfl)
      rw [(eq_of_splitAt?_eq_some isSplit).1]
      simp only [Node.elements_append, Node.elements, kept]

theorem mem_children_of_child?_eq_some
    {element found : Element}
    {name : String}
    (isChild : element.child? name = some found) :
    found.toNode ∈ element.children := by
  obtain ⟨⟨before, _, after⟩, isSplit, rfl⟩ := Option.map_eq_some_iff.1 isChild
  rw [(eq_of_splitAt?_eq_some isSplit).1]
  exact List.mem_append_cons_self

end Element

end Markup
end Conformance
