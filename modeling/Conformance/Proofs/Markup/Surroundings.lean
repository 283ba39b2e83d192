import Conformance.Proofs.Markup.TextEquivalence

/-!
# Surroundings

The surroundings of some siblings are the nodes around them, up to a run of siblings further out.
Filling surroundings puts other siblings in their place, so that an edit deep inside a tree is an
edit of a short list of nodes.
-/

namespace Conformance
namespace Markup

namespace Node

@[simp]
theorem at?_nil (nodes : List Node) : at? [] nodes = none := by
  simp [at?]

/-- A path leads to one of the nodes, or goes on inside an element among them. -/
theorem at?_cons_eq_some_iff
    {index : Nat}
    {path : List Nat}
    {nodes : List Node}
    {node : Node} :
    at? (index :: path) nodes = some node ↔
      (path = [] ∧ nodes[index]? = some node) ∨
      ∃ tag children, nodes[index]? = some (.element tag children) ∧
        at? path children = some node := by
  by_cases isLast : path = []
  · subst isLast
    simp [at?]
  · rw [at?.eq_3 nodes index path isLast]
    simp only [isLast, false_and, false_or]
    constructor
    · intro found
      split at found
      · next tag children child => exact ⟨tag, children, child, found⟩
      · cases found
    · rintro ⟨tag, children, child, found⟩
      rw [child]
      exact found

end Node

/-- What stands around some siblings. -/
inductive Surroundings where
  /-- The siblings before and behind. -/
  | siblings (front back : List Node)
  /-- The element that the siblings stand in, at some depth, and the siblings of that element. -/
  | inside (front : List Node) (tag : Tag) (inner : Surroundings) (back : List Node)

namespace Surroundings

/-- The nodes that come about when siblings are put into surroundings. -/
def fill : Surroundings → List Node → List Node
  | .siblings front back, nodes => front ++ nodes ++ back
  | .inside front tag inner back, nodes => front ++ .element tag (inner.fill nodes) :: back

/-- The child indices that lead to the first of the siblings, if the outermost nodes are counted
from an index on. -/
def pathFrom (index : Nat) : Surroundings → List Nat
  | .siblings front _ => [index + front.length]
  | .inside front _ inner _ => (index + front.length) :: inner.pathFrom 0

/-- Whether no element around the siblings has a class. -/
def IsOpen (className : String) : Surroundings → Prop
  | .siblings _ _ => True
  | .inside _ tag inner _ => tag.hasClass className = false ∧ inner.IsOpen className

/-- The same surroundings with further siblings in front. -/
def behind (earlier : List Node) : Surroundings → Surroundings
  | .siblings front back => .siblings (earlier ++ front) back
  | .inside front tag inner back => .inside (earlier ++ front) tag inner back

@[simp]
theorem fill_behind (surroundings : Surroundings) (earlier nodes : List Node) :
    (surroundings.behind earlier).fill nodes = earlier ++ surroundings.fill nodes := by
  cases surroundings <;> simp [behind, fill]

theorem pathFrom_ne_nil (index : Nat) (surroundings : Surroundings) :
    surroundings.pathFrom index ≠ [] := by
  cases surroundings <;> simp [pathFrom]

theorem pathFrom_behind (index : Nat) (surroundings : Surroundings) (node : Node) :
    (surroundings.behind [node]).pathFrom index = surroundings.pathFrom (index + 1) := by
  cases surroundings <;> simp [behind, pathFrom, Nat.add_comm, Nat.add_left_comm]

/-- Siblings that are text equivalent once a class is taken away are so in any surroundings. -/
theorem textEquivalent_stripAll_fill
    {className : String}
    {first second : List Node}
    (surroundings : Surroundings)
    (equivalent :
      TextEquivalent (Node.stripAll className first) (Node.stripAll className second)) :
    TextEquivalent
      (Node.stripAll className (surroundings.fill first))
      (Node.stripAll className (surroundings.fill second)) := by
  induction surroundings with
  | siblings front back =>
      simp only [fill, Node.stripAll_append]
      exact equivalent.surround _ _
  | inside front tag inner back inductionHypothesis =>
      simp only [fill, Node.stripAll_append, Node.stripAll, Node.hasClass, Node.strip]
      refine .append (.refl _) ?_
      by_cases carries : tag.hasClass className = true
      · simp only [carries, if_true]
        exact .refl _
      · simp only [carries, if_false, Bool.false_eq_true]
        exact .append (.element tag inductionHypothesis) (.refl _)

end Surroundings

/-- Elements of one tag with equivalent children are equivalent once a class is taken away. -/
theorem textEquivalent_stripAll_element
    {className : String}
    {first second : List Node}
    (tag : Tag)
    (equivalent :
      TextEquivalent (Node.stripAll className first) (Node.stripAll className second)) :
    TextEquivalent
      (Node.stripAll className [.element tag first])
      (Node.stripAll className [.element tag second]) := by
  have inside :=
    (Surroundings.inside [] tag (.siblings [] []) []).textEquivalent_stripAll_fill equivalent
  simpa [Surroundings.fill] using inside

/-- An element without the attribute has no class. -/
theorem Tag.hasClass_of_attribute?_eq_none
    {tag : Tag}
    (noClass : tag.attribute? "class" = none)
    (className : String) :
    tag.hasClass className = false := by
  simp [hasClass, classes, noClass, Text.words]

namespace Node

mutual

/-- How many elements, the node itself included, have a tag that is asked for. -/
def countTagsIn (asked : Tag → Bool) : Node → Nat
  | .element tag children => (if asked tag then 1 else 0) + countTags asked children
  | .text _ => 0
  | .comment _ => 0

/-- How many elements among some nodes and at any depth inside have a tag that is asked for. -/
def countTags (asked : Tag → Bool) : List Node → Nat
  | [] => 0
  | node :: rest => countTagsIn asked node + countTags asked rest

end

@[simp]
theorem countTags_append (asked : Tag → Bool) (front back : List Node) :
    countTags asked (front ++ back) = countTags asked front + countTags asked back := by
  induction front with
  | nil => simp [countTags]
  | cons node front inductionHypothesis =>
      simp only [List.cons_append, countTags, inductionHypothesis]
      omega

/-- None of some nodes has an element of a kind if there is none among them. -/
theorem countTagsIn_eq_zero_of_mem
    {asked : Tag → Bool}
    {nodes : List Node}
    (absent : countTags asked nodes = 0)
    {node : Node}
    (member : node ∈ nodes) :
    countTagsIn asked node = 0 := by
  obtain ⟨front, back, rfl⟩ := List.append_of_mem member
  rw [countTags_append, countTags] at absent
  omega

end Node

/-- Exchanging siblings changes the number of elements as much as among the siblings alone. -/
theorem Surroundings.countTags_fill
    (asked : Tag → Bool)
    (surroundings : Surroundings)
    (first second : List Node) :
    Node.countTags asked (surroundings.fill first) + Node.countTags asked second =
      Node.countTags asked (surroundings.fill second) + Node.countTags asked first := by
  induction surroundings with
  | siblings front back =>
      simp only [fill, Node.countTags_append]
      omega
  | inside front tag inner back inductionHypothesis =>
      simp only [fill, Node.countTags_append, Node.countTags, Node.countTagsIn]
      omega

end Markup
end Conformance
