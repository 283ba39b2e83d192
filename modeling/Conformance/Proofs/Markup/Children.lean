import Conformance.Markup.Tree
import Mathlib.Data.List.Basic

/-!
# Children by name

The first child of a name is taken out, exchanged, and found again.
-/

namespace Conformance
namespace Markup
namespace Element

/-- The first child of a name stands between the nodes before and after it. -/
theorem eq_of_splitAt?_eq_some
    {name : String}
    {nodes before after : List Node}
    {found : Element}
    (isSplit : splitAt? name nodes = some (before, found, after)) :
    nodes = before ++ found.toNode :: after ∧ found.tag.name = name := by
  induction nodes generalizing before with
  | nil => cases isSplit
  | cons node rest inductionHypothesis =>
      rw [splitAt?] at isSplit
      split at isSplit
      · next element isFound =>
          cases isSplit
          obtain ⟨isElement, named⟩ := Option.filter_eq_some_iff.1 isFound
          refine ⟨?_, by simpa using named⟩
          cases node with
          | element tag children =>
              cases isElement
              rfl
          | text content => cases isElement
          | comment content => cases isElement
      · obtain ⟨⟨front, element, back⟩, isSplitRest, parts_eq⟩ := Option.map_eq_some_iff.1 isSplit
        cases parts_eq
        obtain ⟨rest_eq, named⟩ := inductionHypothesis isSplitRest
        exact ⟨by rw [rest_eq, List.cons_append], named⟩

/-- A child that is exchanged for one of the same name is still the first one of that name. -/
theorem splitAt?_append_cons
    {name : String}
    {nodes before after : List Node}
    {found changed : Element}
    (isSplit : splitAt? name nodes = some (before, found, after))
    (named : changed.tag.name = name) :
    splitAt? name (before ++ changed.toNode :: after) = some (before, changed, after) := by
  induction nodes generalizing before with
  | nil => cases isSplit
  | cons node rest inductionHypothesis =>
      rw [splitAt?] at isSplit
      split at isSplit
      · cases isSplit
        simp [splitAt?, toNode, Node.toElement?, Option.filter, named]
      · next absent =>
          obtain ⟨⟨front, element, back⟩, isSplitRest, parts_eq⟩ :=
            Option.map_eq_some_iff.1 isSplit
          cases parts_eq
          rw [List.cons_append, splitAt?, absent]
          simp [inductionHypothesis isSplitRest]

/-- Changing a child changes what is found under its name. -/
theorem child?_modifyChild
    {change : Element → Element}
    (keepsName : ∀ found, (change found).tag.name = found.tag.name)
    (element : Element)
    (name : String) :
    (element.modifyChild name change).child? name = (element.child? name).map change := by
  rw [modifyChild]
  cases isSplit : splitAt? name element.children with
  | none => simp [child?, isSplit]
  | some parts =>
      obtain ⟨before, found, after⟩ := parts
      have named := (eq_of_splitAt?_eq_some isSplit).2
      have changedSplit :=
        splitAt?_append_cons isSplit ((keepsName found).trans named)
      simp [child?, isSplit, changedSplit]

theorem modifyChild_eq_self
    {change : Element → Element}
    {element : Element}
    {name : String}
    (unchanged : ∀ found, element.child? name = some found → change found = found) :
    element.modifyChild name change = element := by
  rw [modifyChild]
  cases isSplit : splitAt? name element.children with
  | none => rfl
  | some parts =>
      obtain ⟨before, found, after⟩ := parts
      have found_eq : change found = found := unchanged found (by simp [child?, isSplit])
      simp only [found_eq, ← (eq_of_splitAt?_eq_some isSplit).1]

/-- The first child of a name is found by going through the children. -/
theorem child?_eq_findSome? (element : Element) (name : String) :
    element.child? name = element.children.findSome? fun node =>
      node.toElement?.filter fun element => element.tag.name == name := by
  rw [child?]
  induction element.children with
  | nil => rfl
  | cons node rest inductionHypothesis =>
      rw [splitAt?, List.findSome?_cons]
      cases node.toElement?.filter fun element => element.tag.name == name with
      | some found => rfl
      | none =>
          rw [← inductionHypothesis]
          cases splitAt? name rest <;> rfl

/-- Changing a child does not change what is found under another name. -/
theorem child?_modifyChild_of_ne
    {change : Element → Element}
    (keepsName : ∀ found, (change found).tag.name = found.tag.name)
    (element : Element)
    {name other : String}
    (different : name ≠ other) :
    (element.modifyChild name change).child? other = element.child? other := by
  rw [modifyChild]
  cases isSplit : splitAt? name element.children with
  | none => rfl
  | some parts =>
      obtain ⟨before, found, after⟩ := parts
      obtain ⟨children_eq, named⟩ := eq_of_splitAt?_eq_some isSplit
      have notFound : (found.toNode.toElement?.filter fun element => element.tag.name == other) =
          none := by
        simp [toNode, Node.toElement?, Option.filter, named, different]
      have notChanged :
          ((change found).toNode.toElement?.filter fun element => element.tag.name == other) =
            none := by
        simp [toNode, Node.toElement?, Option.filter, keepsName, named, different]
      rw [child?_eq_findSome?, child?_eq_findSome?, children_eq]
      simp only [List.findSome?_append, List.findSome?_cons, notFound, notChanged]

end Element
end Markup
end Conformance
