import Conformance.Proofs.Markup.Surroundings

/-!
# Pairings

Two runs of siblings are paired over bare siblings if each of them consists of the bare ones and
of added nodes, and the added nodes stand in the same places and are related in pairs.  So two
documents that were edited alike are compared: they agree once every added node is exchanged for a
common one.
-/

namespace Conformance
namespace Markup

/-- Two runs of siblings consist of the same bare siblings and, in the same places at any depth, of
added nodes that are related in pairs. -/
inductive Paired (related : Node → Node → Prop) : (bare first second : List Node) → Prop where
  | nil : Paired related [] [] []
  | text (content : String) {bare first second : List Node} :
      Paired related bare first second →
      Paired related (.text content :: bare) (.text content :: first) (.text content :: second)
  | comment (content : String) {bare first second : List Node} :
      Paired related bare first second →
      Paired related (.comment content :: bare) (.comment content :: first)
        (.comment content :: second)
  | element (tag : Tag) {bareInside firstInside secondInside bare first second : List Node} :
      Paired related bareInside firstInside secondInside →
      Paired related bare first second →
      Paired related (.element tag bareInside :: bare) (.element tag firstInside :: first)
        (.element tag secondInside :: second)
  /-- A node that each of the runs has beyond the bare siblings. -/
  | added {firstNode secondNode : Node} {bare first second : List Node} :
      related firstNode secondNode →
      Paired related bare first second →
      Paired related bare (firstNode :: first) (secondNode :: second)

/-- The nodes that some siblings have beyond the bare ones, at any depth, satisfy a condition, and
exchanging each of them gives the other siblings. -/
def Exchanged
    (isAdded : Node → Prop)
    (exchange : Node → Node)
    (bare nodes exchanged : List Node) :
    Prop :=
  Paired (fun node other => isAdded node ∧ other = exchange node) bare nodes exchanged

/-- An element without its classes and its inside. -/
def Node.blank : Node → Node
  | .element tag _ => .element (tag.setAttribute "class" "") []
  | other => other

namespace Paired

variable {related : Node → Node → Prop}

mutual

theorem refl_cons :
    (node : Node) → {rest : List Node} →
    Paired related rest rest rest → Paired related (node :: rest) (node :: rest) (node :: rest)
  | .element tag children, _, pairedRest => .element tag (refl children) pairedRest
  | .text content, _, pairedRest => .text content pairedRest
  | .comment content, _, pairedRest => .comment content pairedRest

/-- Siblings to which nothing is added are paired with themselves. -/
theorem refl : (nodes : List Node) → Paired related nodes nodes nodes
  | [] => .nil
  | node :: rest => refl_cons node (refl rest)

end

variable {bare first second : List Node}

/-- Paired runs one after the other are paired. -/
theorem append
    {bareBack firstBack secondBack : List Node}
    (paired : Paired related bare first second)
    (pairedBack : Paired related bareBack firstBack secondBack) :
    Paired related (bare ++ bareBack) (first ++ firstBack) (second ++ secondBack) := by
  induction paired with
  | nil => exact pairedBack
  | text content _ inductionHypothesis => exact .text content inductionHypothesis
  | comment content _ inductionHypothesis => exact .comment content inductionHypothesis
  | element tag inside _ _ inductionHypothesis => exact .element tag inside inductionHypothesis
  | added isRelated _ inductionHypothesis => exact .added isRelated inductionHypothesis

/-- Where one run is divided, the other one and the bare siblings are. -/
theorem exists_append
    {front back : List Node}
    (paired : Paired related bare (front ++ back) second) :
    ∃ bareFront bareBack secondFront secondBack,
      bare = bareFront ++ bareBack ∧ second = secondFront ++ secondBack ∧
        Paired related bareFront front secondFront ∧ Paired related bareBack back secondBack := by
  induction front generalizing bare second with
  | nil => exact ⟨[], bare, [], second, rfl, rfl, .nil, paired⟩
  | cons node front inductionHypothesis =>
      cases paired with
      | text content rest =>
          obtain ⟨bareFront, bareBack, secondFront, secondBack, rfl, rfl, pairedFront,
            pairedBack⟩ := inductionHypothesis rest
          exact ⟨_ :: bareFront, bareBack, _ :: secondFront, secondBack, rfl, rfl,
            .text content pairedFront, pairedBack⟩
      | comment content rest =>
          obtain ⟨bareFront, bareBack, secondFront, secondBack, rfl, rfl, pairedFront,
            pairedBack⟩ := inductionHypothesis rest
          exact ⟨_ :: bareFront, bareBack, _ :: secondFront, secondBack, rfl, rfl,
            .comment content pairedFront, pairedBack⟩
      | element tag inside rest =>
          obtain ⟨bareFront, bareBack, secondFront, secondBack, rfl, rfl, pairedFront,
            pairedBack⟩ := inductionHypothesis rest
          exact ⟨_ :: bareFront, bareBack, _ :: secondFront, secondBack, rfl, rfl,
            .element tag inside pairedFront, pairedBack⟩
      | added isRelated rest =>
          obtain ⟨bareFront, bareBack, secondFront, secondBack, rfl, rfl, pairedFront,
            pairedBack⟩ := inductionHypothesis rest
          exact ⟨bareFront, bareBack, _ :: secondFront, secondBack, rfl, rfl,
            .added isRelated pairedFront, pairedBack⟩

theorem length_eq (paired : Paired related bare first second) : second.length = first.length := by
  induction paired with
  | nil => rfl
  | text _ _ inductionHypothesis
  | comment _ _ inductionHypothesis
  | element _ _ _ _ inductionHypothesis
  | added _ _ inductionHypothesis => simp [inductionHypothesis]

/-- If what is added becomes the same by an exchange on each side, exchanging it makes both runs
one. -/
theorem exists_exchanged
    {isFirst isSecond : Node → Prop}
    {exchangeFirst exchangeSecond : Node → Node}
    (agree : ∀ {firstNode secondNode}, related firstNode secondNode →
      isFirst firstNode ∧ isSecond secondNode ∧
        exchangeFirst firstNode = exchangeSecond secondNode)
    (paired : Paired related bare first second) :
    ∃ common,
      Exchanged isFirst exchangeFirst bare first common ∧
        Exchanged isSecond exchangeSecond bare second common := by
  induction paired with
  | nil => exact ⟨[], .nil, .nil⟩
  | text content _ inductionHypothesis =>
      obtain ⟨common, ofFirst, ofSecond⟩ := inductionHypothesis
      exact ⟨_, .text content ofFirst, .text content ofSecond⟩
  | comment content _ inductionHypothesis =>
      obtain ⟨common, ofFirst, ofSecond⟩ := inductionHypothesis
      exact ⟨_, .comment content ofFirst, .comment content ofSecond⟩
  | element tag _ _ insideHypothesis inductionHypothesis =>
      obtain ⟨inside, insideFirst, insideSecond⟩ := insideHypothesis
      obtain ⟨common, ofFirst, ofSecond⟩ := inductionHypothesis
      exact ⟨_, .element tag insideFirst ofFirst, .element tag insideSecond ofSecond⟩
  | added isRelated _ inductionHypothesis =>
      obtain ⟨common, ofFirst, ofSecond⟩ := inductionHypothesis
      obtain ⟨firstIs, secondIs, same⟩ := agree isRelated
      exact ⟨_, .added ⟨firstIs, rfl⟩ ofFirst, .added ⟨secondIs, same⟩ ofSecond⟩

/-- Around a text node that does not stand in an added node, the surroundings are paired: whatever
is paired can be put in its place. -/
theorem exists_surroundings
    {className : String}
    (onlyMarked : ∀ {firstNode secondNode}, related firstNode secondNode →
      firstNode.hasClass className = true)
    {surroundings : Surroundings}
    (isOpen : surroundings.IsOpen className)
    {content : String}
    (paired : Paired related bare (surroundings.fill [.text content]) second) :
    ∃ bareSurroundings secondSurroundings : Surroundings,
      bare = bareSurroundings.fill [.text content] ∧
      second = secondSurroundings.fill [.text content] ∧
      secondSurroundings.pathFrom 0 = surroundings.pathFrom 0 ∧
      ∀ {bareNodes firstNodes secondNodes : List Node},
        Paired related bareNodes firstNodes secondNodes →
        Paired related (bareSurroundings.fill bareNodes) (surroundings.fill firstNodes)
          (secondSurroundings.fill secondNodes) := by
  induction surroundings generalizing bare second with
  | siblings front back =>
      rw [Surroundings.fill, List.append_assoc] at paired
      obtain ⟨bareFront, _, secondFront, _, rfl, rfl, pairedFront, pairedRest⟩ :=
        paired.exists_append
      cases pairedRest with
      | added isRelated _ => cases onlyMarked isRelated
      | text _ pairedBack =>
          rename_i bareBack secondBack
          refine ⟨.siblings bareFront bareBack, .siblings secondFront secondBack, ?_, ?_, ?_, ?_⟩
          · simp [Surroundings.fill]
          · simp [Surroundings.fill]
          · simp [Surroundings.pathFrom, pairedFront.length_eq]
          · intro bareNodes firstNodes secondNodes pairedNodes
            exact (pairedFront.append pairedNodes).append pairedBack
  | inside front tag inner back inductionHypothesis =>
      rw [Surroundings.fill] at paired
      obtain ⟨bareFront, _, secondFront, _, rfl, rfl, pairedFront, pairedRest⟩ :=
        paired.exists_append
      cases pairedRest with
      | added isRelated _ =>
          have marked := onlyMarked isRelated
          rw [Node.hasClass, isOpen.1] at marked
          cases marked
      | element _ pairedInside pairedBack =>
          rename_i bareBack secondBack
          obtain ⟨bareInner, secondInner, rfl, rfl, samePath, fillPaired⟩ :=
            inductionHypothesis isOpen.2 pairedInside
          refine ⟨.inside bareFront tag bareInner bareBack,
            .inside secondFront tag secondInner secondBack, rfl, rfl, ?_, ?_⟩
          · simp [Surroundings.pathFrom, pairedFront.length_eq, samePath]
          · intro bareNodes firstNodes secondNodes pairedNodes
            exact pairedFront.append (.element tag (fillPaired pairedNodes) pairedBack)

end Paired

/-- Text equivalent siblings make surroundings text equivalent. -/
theorem Surroundings.textEquivalent_fill
    {first second : List Node}
    (surroundings : Surroundings)
    (equivalent : TextEquivalent first second) :
    TextEquivalent (surroundings.fill first) (surroundings.fill second) := by
  induction surroundings with
  | siblings front back => exact equivalent.surround front back
  | inside front tag inner back inductionHypothesis =>
      have around := (TextEquivalent.element tag inductionHypothesis).surround front back
      simpa [fill] using around

end Markup
end Conformance
