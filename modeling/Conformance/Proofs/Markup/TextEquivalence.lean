import Conformance.Markup.Document

/-!
# Equivalence up to the division of text

Two runs of siblings are text equivalent if they differ only in how their text is divided into
text nodes, at any depth: text nodes that stand side by side may be merged, and empty ones may be
left out.  Text equivalent nodes hold the same text and are written alike.
-/

namespace Conformance
namespace Markup

/-- Equality of runs of siblings up to merging adjacent text nodes and dropping empty ones. -/
inductive TextEquivalent : List Node → List Node → Prop where
  | refl (nodes : List Node) : TextEquivalent nodes nodes
  | symm {first second : List Node} :
      TextEquivalent first second → TextEquivalent second first
  | trans {first second third : List Node} :
      TextEquivalent first second → TextEquivalent second third → TextEquivalent first third
  /-- An empty text node counts as none. -/
  | dropEmpty : TextEquivalent [.text ""] []
  /-- Two adjacent text nodes count as one. -/
  | merge (front back : String) :
      TextEquivalent [.text front, .text back] [.text (front ++ back)]
  | append {firstFront secondFront firstBack secondBack : List Node} :
      TextEquivalent firstFront secondFront →
      TextEquivalent firstBack secondBack →
      TextEquivalent (firstFront ++ firstBack) (secondFront ++ secondBack)
  | element (tag : Tag) {first second : List Node} :
      TextEquivalent first second →
      TextEquivalent [.element tag first] [.element tag second]

namespace Node

@[simp]
theorem textContents_append (front back : List Node) :
    textContents (front ++ back) = textContents front ++ textContents back := by
  induction front with
  | nil => simp [textContents]
  | cons node front inductionHypothesis =>
      simp only [List.cons_append, textContents, inductionHypothesis, String.append_assoc]

@[simp]
theorem stripAll_append (className : String) (front back : List Node) :
    stripAll className (front ++ back) = stripAll className front ++ stripAll className back := by
  induction front with
  | nil => simp [stripAll]
  | cons node front inductionHypothesis =>
      by_cases carries : node.hasClass className = true
      · simp only [List.cons_append, stripAll, carries, if_true, inductionHypothesis]
      · simp only [List.cons_append, stripAll, carries, if_false, inductionHypothesis,
          Bool.false_eq_true]

mutual

theorem strip_eq_self
    (className : String) :
    (node : Node) → countInside className node = 0 → strip className node = node
  | .element tag children, absent => by
      rw [strip, stripAll_eq_self className children absent]
  | .text content, _ => by rw [strip]
  | .comment content, _ => by rw [strip]

/-- Where no element of a class stands, none is taken away. -/
theorem stripAll_eq_self
    (className : String) :
    (nodes : List Node) → countAll className nodes = 0 → stripAll className nodes = nodes
  | [], _ => by rw [stripAll]
  | node :: rest, absent => by
      rw [countAll] at absent
      by_cases carries : node.hasClass className = true
      · rw [if_pos carries] at absent
        omega
      · rw [if_neg carries] at absent
        rw [stripAll, if_neg carries, strip_eq_self className node (by omega),
          stripAll_eq_self className rest (by omega)]

end

end Node

namespace Html

@[simp]
theorem nodes_append (raw : Bool) (front back : List Node) :
    nodes raw (front ++ back) = nodes raw front ++ nodes raw back := by
  induction front with
  | nil => simp [nodes]
  | cons first front inductionHypothesis =>
      simp only [List.cons_append, nodes, inductionHypothesis, List.append_assoc]

theorem escape_append (front back : List Char) :
    escape (front ++ back) = escape front ++ escape back := by
  simp [escape]

end Html

namespace TextEquivalent

/-- Equality under nodes that stand before and behind. -/
theorem surround
    {first second : List Node}
    (equivalent : TextEquivalent first second)
    (front back : List Node) :
    TextEquivalent (front ++ first ++ back) (front ++ second ++ back) :=
  append (append (refl front) equivalent) (refl back)

/-- Text equivalent nodes hold the same text. -/
theorem textContents_eq
    {first second : List Node}
    (equivalent : TextEquivalent first second) :
    Node.textContents first = Node.textContents second := by
  induction equivalent with
  | refl nodes => rfl
  | symm _ inductionHypothesis => exact inductionHypothesis.symm
  | trans _ _ firstHypothesis secondHypothesis => exact firstHypothesis.trans secondHypothesis
  | dropEmpty => simp [Node.textContents, Node.textContent]
  | merge front back => simp [Node.textContents, Node.textContent]
  | append _ _ frontHypothesis backHypothesis =>
      rw [Node.textContents_append, Node.textContents_append, frontHypothesis, backHypothesis]
  | element tag _ inductionHypothesis =>
      simp only [Node.textContents, Node.textContent, inductionHypothesis]

/-- Text equivalent nodes are written alike, inside and outside raw text elements. -/
theorem html_eq
    {first second : List Node}
    (equivalent : TextEquivalent first second)
    (raw : Bool) :
    Html.nodes raw first = Html.nodes raw second := by
  induction equivalent generalizing raw with
  | refl nodes => rfl
  | symm _ inductionHypothesis => exact (inductionHypothesis raw).symm
  | trans _ _ firstHypothesis secondHypothesis =>
      exact (firstHypothesis raw).trans (secondHypothesis raw)
  | dropEmpty => cases raw <;> simp [Html.nodes, Html.node, Html.escape]
  | merge front back =>
      cases raw <;> simp [Html.nodes, Html.node, Html.escape_append]
  | append _ _ frontHypothesis backHypothesis =>
      rw [Html.nodes_append, Html.nodes_append, frontHypothesis raw, backHypothesis raw]
  | element tag _ inductionHypothesis =>
      simp only [Html.nodes, Html.node, inductionHypothesis]

end TextEquivalent

end Markup
end Conformance
