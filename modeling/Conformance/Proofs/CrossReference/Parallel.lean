import Conformance.Proofs.CrossReference.Acceptance
import Conformance.Proofs.Markup.Pairing
import Mathlib.Data.List.Forall2

/-!
# Two walks side by side

Two annotations of one document that plan anchors at the same offsets of every unit yield documents
that are paired over the document: anchors contribute no text, so both walks locate every offset in
the same text node, and both leave the later units among siblings with the same texts.
-/

namespace Conformance
namespace CrossReference

open Markup
open Prose (Pattern)

/-! ## Indices of paired siblings -/

namespace Piece

/-- The piece without the assertion that it names. -/
def anonymous : Piece → Piece
  | .text path content => .text path content
  | .anchor _ => .anchor none

@[simp]
theorem anonymous_below (index : Nat) (piece : Piece) :
    (piece.below index).anonymous = piece.anonymous.below index := by
  cases piece <;> rfl

@[simp]
theorem content_anonymous (piece : Piece) : piece.anonymous.content = piece.content := by
  cases piece <;> rfl

theorem map_anonymous_map_below (index : Nat) (pieces : List Piece) :
    (pieces.map (below index)).map anonymous = (pieces.map anonymous).map (below index) := by
  simp [Function.comp_def]

end Piece

@[simp]
theorem segmentsFrom_map_anonymous (offset : Nat) (pieces : List Piece) :
    segmentsFrom offset (pieces.map Piece.anonymous) = segmentsFrom offset pieces := by
  induction pieces generalizing offset with
  | nil => rfl
  | cons piece pieces inductionHypothesis =>
      cases piece <;> simp [Piece.anonymous, segmentsFrom, inductionHypothesis]

theorem TextIndex.mem_segments_of_locate?
    {index : TextIndex}
    {offset position : Nat}
    {segment : Segment}
    (located : index.locate? offset = some (segment, position)) :
    segment ∈ index.segments := by
  rw [locate?, Option.map_eq_some_iff] at located
  obtain ⟨found, isFound, same⟩ := located
  obtain ⟨rfl, -⟩ := Prod.mk.inj same
  rcases Prose.eq_some_or_of_orElse_eq_some isFound with inside | last
  · exact List.mem_of_find?_eq_some inside
  · exact List.mem_of_getLast? last

/-- Where an offset is located, there is a text node outside anchors. -/
theorem surroundings_of_locate?
    {anchorClass : String}
    {nodes : List Node}
    {offset position : Nat}
    {segment : Segment}
    (located : (TextIndex.ofNodes anchorClass nodes).locate? offset = some (segment, position)) :
    ∃ (surroundings : Surroundings) (content : String), surroundings.IsOpen anchorClass ∧
      nodes = surroundings.fill [.text content] ∧ segment.path = surroundings.pathFrom 0 := by
  obtain ⟨front, content, back, pieces_eq, -⟩ :=
    piece_of_mem_segmentsFrom (TextIndex.mem_segments_of_locate? located)
  obtain ⟨surroundings, isOpen, nodes_eq, path_eq, _⟩ := surroundings_of_piecesFrom 0 nodes pieces_eq
  exact ⟨surroundings, content, isOpen, nodes_eq, path_eq⟩

theorem proses_cons (anchorClass : String) (node : Node) (nodes : List Node) :
    proses anchorClass (node :: nodes) =
      proseOf (marks anchorClass [node]) :: proses anchorClass nodes :=
  List.map_cons

section Paired

variable
  {anchorClass : String}
  {related : Node → Node → Prop}
  (areAnchors : ∀ {firstNode secondNode}, related firstNode secondNode →
    firstNode.hasClass anchorClass = true ∧ secondNode.hasClass anchorClass = true)
  {bare first second : List Node}

theorem map_anonymous_piecesOfNode_anchor
    {node : Node}
    (isAnchor : node.hasClass anchorClass = true) :
    (piecesOfNode anchorClass node).map Piece.anonymous = [.anchor none] := by
  cases node with
  | element tag children =>
      have carries : tag.hasClass anchorClass = true := isAnchor
      simp [piecesOfNode, carries, Piece.anonymous]
  | text content => cases isAnchor
  | comment content => cases isAnchor

include areAnchors

/-- Paired siblings have the same pieces but for the assertions that their anchors name. -/
theorem map_anonymous_piecesFrom
    (paired : Paired related bare first second)
    (index : Nat) :
    (piecesFrom anchorClass index second).map Piece.anonymous =
      (piecesFrom anchorClass index first).map Piece.anonymous := by
  induction paired generalizing index with
  | nil => rfl
  | text content _ inductionHypothesis
  | comment content _ inductionHypothesis => simp [piecesFrom, inductionHypothesis]
  | element tag _ _ insideHypothesis inductionHypothesis =>
      rename_i bareInside firstInside secondInside bare first second _ _
      have sameInside :
          (piecesOfNode anchorClass (.element tag secondInside)).map Piece.anonymous =
            (piecesOfNode anchorClass (.element tag firstInside)).map Piece.anonymous := by
        by_cases carries : tag.hasClass anchorClass = true
        · simp [piecesOfNode, carries]
        · simp [piecesOfNode, carries, insideHypothesis]
      rw [piecesFrom, piecesFrom, List.map_append, List.map_append,
        Piece.map_anonymous_map_below, Piece.map_anonymous_map_below, sameInside,
        inductionHypothesis]
  | added isRelated _ inductionHypothesis =>
      obtain ⟨firstIs, secondIs⟩ := areAnchors isRelated
      rw [piecesFrom, piecesFrom, List.map_append, List.map_append,
        Piece.map_anonymous_map_below, Piece.map_anonymous_map_below,
        map_anonymous_piecesOfNode_anchor firstIs, map_anonymous_piecesOfNode_anchor secondIs,
        inductionHypothesis]

/-- Every offset is located alike in paired siblings. -/
theorem locate?_eq_of_paired
    (paired : Paired related bare first second)
    (offset : Nat) :
    (TextIndex.ofNodes anchorClass second).locate? offset =
      (TextIndex.ofNodes anchorClass first).locate? offset := by
  have segments_eq :
      (TextIndex.ofNodes anchorClass second).segments =
        (TextIndex.ofNodes anchorClass first).segments := by
    rw [TextIndex.ofNodes, TextIndex.ofNodes, TextIndex.ofPieces, TextIndex.ofPieces,
      ← segmentsFrom_map_anonymous, map_anonymous_piecesFrom areAnchors paired,
      segmentsFrom_map_anonymous]
  rw [TextIndex.locate?, TextIndex.locate?, segments_eq]

/-- Paired siblings have the same text. -/
theorem proseOf_marks_eq_of_paired (paired : Paired related bare first second) :
    proseOf (marks anchorClass second) = proseOf (marks anchorClass first) := by
  have forgotten (pieces : List Piece) : proseOf (pieces.map Piece.anonymous) = proseOf pieces := by
    simp [proseOf, List.flatMap_map]
  rw [marks, marks, proseOf_map_unplaced, proseOf_map_unplaced, ← forgotten,
    map_anonymous_piecesFrom areAnchors paired, forgotten]

/-- Paired siblings have the same texts one by one. -/
theorem proses_eq_of_paired (paired : Paired related bare first second) :
    proses anchorClass second = proses anchorClass first := by
  induction paired with
  | nil => rfl
  | text content _ inductionHypothesis
  | comment content _ inductionHypothesis => rw [proses_cons, proses_cons, inductionHypothesis]
  | element tag inside _ _ inductionHypothesis =>
      have sameInside := proseOf_marks_eq_of_paired areAnchors inside
      rw [proses_cons, proses_cons, inductionHypothesis,
        proseOf_marks_element_congr sameInside tag]
  | added isRelated _ inductionHypothesis =>
      have sameText := proseOf_marks_eq_of_paired areAnchors (.added isRelated .nil)
      rw [proses_cons, proses_cons, inductionHypothesis, sameText]

end Paired

/-! ## Anchors put in side by side -/

/-- Nodes that are put at the same place of a text node are added to its halves. -/
theorem exists_paired_divide
    {related : Node → Node → Prop}
    {firstNode secondNode : Node}
    (isRelated : related firstNode secondNode)
    (content : String)
    (position : Nat) :
    ∃ bare, TextEquivalent bare [.text content] ∧
      Paired related bare (divide content position firstNode)
        (divide content position secondNode) := by
  let halves := Text.cutAt position content.toList
  refine ⟨textNode halves.1 ++ textNode halves.2, ?_, ?_⟩
  · have whole := textEquivalent_textNode_append halves.1 halves.2
    rwa [Text.cutAt_fst_append_snd, String.ofList_toList] at whole
  · exact (Paired.refl _).append (.added isRelated (Paired.refl _))

/-- Lists whose members have the same measures agree member by member. -/
theorem forall₂_of_map_eq
    {First Second Measure : Type}
    {measure : First → Measure}
    {otherMeasure : Second → Measure}
    {agrees : First → Second → Prop}
    {items : List First}
    {others : List Second}
    (same : others.map otherMeasure = items.map measure)
    (agree : ∀ item ∈ items, ∀ other ∈ others,
      otherMeasure other = measure item → agrees item other) :
    List.Forall₂ (fun item other => otherMeasure other = measure item ∧ agrees item other)
      items others := by
  induction items generalizing others with
  | nil =>
      rw [List.map_nil, List.map_eq_nil_iff] at same
      subst same
      exact .nil
  | cons item items inductionHypothesis =>
      obtain ⟨other, rest, rfl, sameFirst, sameRest⟩ := List.map_eq_cons_iff.1 same
      refine .cons ⟨sameFirst, ?_⟩ (inductionHypothesis sameRest ?_)
      · exact agree item List.mem_cons_self other List.mem_cons_self sameFirst
      · intro later isLater laterOther isLaterOther
        exact agree later (List.mem_cons_of_mem item isLater) laterOther
          (List.mem_cons_of_mem other isLaterOther)

/-- Plans with the same offsets agree member by member once they are sorted. -/
theorem forall₂_mergeSort
    {agrees : Planned → Planned → Prop}
    {plan otherPlan : List Planned}
    (sameOffsets : (otherPlan.map Planned.offset).Perm (plan.map Planned.offset))
    (agree : ∀ planned ∈ plan, ∀ other ∈ otherPlan,
      other.offset = planned.offset → agrees planned other) :
    let notAfter (first second : Planned) : Bool := decide (first.offset ≤ second.offset)
    List.Forall₂ (fun planned other => other.offset = planned.offset ∧ agrees planned other)
      (plan.mergeSort notAfter) (otherPlan.mergeSort notAfter) := by
  intro notAfter
  have isPerm (plan : List Planned) : (plan.mergeSort notAfter).Perm plan :=
    List.mergeSort_perm plan notAfter
  have ordered (plan : List Planned) :
      ((plan.mergeSort notAfter).map Planned.offset).Pairwise (· ≤ ·) :=
    List.pairwise_map.2 (pairwise_offset_mergeSort plan)
  apply forall₂_of_map_eq
  · refine List.Perm.eq_of_pairwise ?_ (ordered otherPlan) (ordered plan) ?_
    · intro first second _ _ notAfter notBefore
      exact Nat.le_antisymm notAfter notBefore
    · exact (((isPerm otherPlan).map Planned.offset).trans sameOffsets).trans
        ((isPerm plan).map Planned.offset).symm
  · intro planned isPlanned other isOther
    exact agree planned ((isPerm plan).mem_iff.1 isPlanned) other
      ((isPerm otherPlan).mem_iff.1 isOther)

namespace Annotator

section Put

variable
  (annotator : Annotator)
  (coverage otherCoverage : Coverage)
  (agrees : Planned → Planned → Prop)

/-- Whether two nodes are anchors, of two walks, for planned anchors that agree. -/
def AnchorsAgree (first second : Node) : Prop :=
  ∃ planned other, agrees planned other ∧
    first = annotator.anchor coverage planned.id planned.keyword ∧
    second = annotator.anchor otherCoverage other.id other.keyword

variable {annotator coverage otherCoverage agrees}

theorem AnchorsAgree.hasClass
    (isToken : Text.IsToken annotator.anchorClass)
    {first second : Node}
    (anchorsAgree : annotator.AnchorsAgree coverage otherCoverage agrees first second) :
    first.hasClass annotator.anchorClass = true ∧
      second.hasClass annotator.anchorClass = true := by
  obtain ⟨planned, other, _, rfl, rfl⟩ := anchorsAgree
  exact ⟨annotator.hasClass_anchor isToken coverage _ _,
    annotator.hasClass_anchor isToken otherCoverage _ _⟩

variable (isToken : Text.IsToken annotator.anchorClass)

include isToken

/-- Anchors that are put at one offset of paired siblings are added to them. -/
theorem exists_paired_put
    {insertion otherInsertion : Insertion}
    {planned other : Planned}
    (sameOffset : other.offset = planned.offset)
    (agree : agrees planned other)
    {bare : List Node}
    (paired : Paired (annotator.AnchorsAgree coverage otherCoverage agrees) bare
      insertion.nodes otherInsertion.nodes) :
    ∃ divided, TextEquivalent divided bare ∧
      Paired (annotator.AnchorsAgree coverage otherCoverage agrees) divided
        (annotator.put coverage insertion planned).nodes
        (annotator.put otherCoverage otherInsertion other).nodes := by
  have sameLocation :=
    locate?_eq_of_paired (fun anchors => anchors.hasClass isToken) paired planned.offset
  rw [put, put, sameOffset, sameLocation]
  cases located : (TextIndex.ofNodes annotator.anchorClass insertion.nodes).locate?
      planned.offset with
  | none => exact ⟨bare, .refl bare, paired⟩
  | some place =>
      obtain ⟨segment, position⟩ := place
      obtain ⟨surroundings, content, isOpen, nodes_eq, path_eq⟩ := surroundings_of_locate? located
      rw [nodes_eq] at paired
      obtain ⟨bareSurroundings, otherSurroundings, rfl, otherNodes_eq, samePath, fillPaired⟩ :=
        paired.exists_surroundings (fun anchors => (anchors.hasClass isToken).1) isOpen
      have anchorsAgree : annotator.AnchorsAgree coverage otherCoverage agrees
          (annotator.anchor coverage planned.id planned.keyword)
          (annotator.anchor otherCoverage other.id other.keyword) :=
        ⟨planned, other, agree, rfl, rfl⟩
      obtain ⟨halves, equivalent, pairedHalves⟩ :=
        exists_paired_divide anchorsAgree content position
      refine ⟨bareSurroundings.fill halves, bareSurroundings.textEquivalent_fill equivalent, ?_⟩
      simp only [path_eq, nodes_eq, otherNodes_eq, insertAt_pathFrom_fill]
      rw [← samePath, insertAt_pathFrom_fill]
      exact fillPaired pairedHalves

theorem exists_paired_foldl_put
    {plan otherPlan : List Planned}
    (aligned : List.Forall₂
      (fun planned other => other.offset = planned.offset ∧ agrees planned other) plan otherPlan)
    {insertion otherInsertion : Insertion}
    {bare : List Node}
    (paired : Paired (annotator.AnchorsAgree coverage otherCoverage agrees) bare
      insertion.nodes otherInsertion.nodes) :
    ∃ divided, TextEquivalent divided bare ∧
      Paired (annotator.AnchorsAgree coverage otherCoverage agrees) divided
        (plan.foldl (annotator.put coverage) insertion).nodes
        (otherPlan.foldl (annotator.put otherCoverage) otherInsertion).nodes := by
  induction aligned generalizing insertion otherInsertion bare with
  | nil => exact ⟨bare, .refl bare, paired⟩
  | cons here _ inductionHypothesis =>
      obtain ⟨divided, equivalent, pairedOnce⟩ := exists_paired_put isToken here.1 here.2 paired
      obtain ⟨dividedAll, equivalentAll, pairedAll⟩ := inductionHypothesis pairedOnce
      exact ⟨dividedAll, equivalentAll.trans equivalent, pairedAll⟩

end Put

/-- Whether two lists of assertions lead to anchors at the same offsets of every unit, whatever
stands before it as long as the siblings have the same texts, and the anchors agree. -/
def PlansAgree
    (anchorClass : String)
    (agrees : Planned → Planned → Prop)
    (assertions others : List SpecAssertion) :
    Prop :=
  ∀ {before otherBefore : List Node} (node : Node),
    proses anchorClass otherBefore = proses anchorClass before →
    let plan := (ProseUnit.ofNode anchorClass before node).plan anchorClass (candidates assertions)
    let otherPlan :=
      (ProseUnit.ofNode anchorClass otherBefore node).plan anchorClass (candidates others)
    (otherPlan.map Planned.offset).Perm (plan.map Planned.offset) ∧
      ∀ planned ∈ plan, ∀ other ∈ otherPlan,
        other.offset = planned.offset → agrees planned other

/-- Units with agreeing plans have paired stand-ins. -/
theorem exists_paired_standIns
    {annotator : Annotator}
    (isToken : Text.IsToken annotator.anchorClass)
    (coverage otherCoverage : Coverage)
    {agrees : Planned → Planned → Prop}
    {assertions others : List SpecAssertion}
    (plansAgree : PlansAgree annotator.anchorClass agrees assertions others)
    {before otherBefore : List Node}
    (node : Node)
    (sameTexts : proses annotator.anchorClass otherBefore = proses annotator.anchorClass before) :
    ∃ bare, TextEquivalent bare [node] ∧
      Paired (annotator.AnchorsAgree coverage otherCoverage agrees) bare
        (annotator.standIns coverage (candidates assertions)
          (ProseUnit.ofNode annotator.anchorClass before node))
        (annotator.standIns otherCoverage (candidates others)
          (ProseUnit.ofNode annotator.anchorClass otherBefore node)) := by
  obtain ⟨sameOffsets, agree⟩ := plansAgree node sameTexts
  exact exists_paired_foldl_put isToken (forall₂_mergeSort sameOffsets agree) (Paired.refl [node])

end Annotator

/-- Whether a node is the anchor of one of some assertions, with the keyword of its pattern. -/
def IsAnchorFor
    (annotator : Annotator)
    (coverage : Coverage)
    (assertions : List SpecAssertion)
    (node : Node) :
    Prop :=
  ∃ assertion ∈ assertions, ∃ pattern, Pattern.ofAssertion assertion = .ok pattern ∧
    node = annotator.anchor coverage assertion.id pattern.keyword

/-- A planned anchor is that of one of the assertions. -/
theorem isAnchorFor_of_mem_plan
    (annotator : Annotator)
    (coverage : Coverage)
    {anchorClass : String}
    {unit : ProseUnit}
    {assertions : List SpecAssertion}
    {planned : Planned}
    (member : planned ∈ unit.plan anchorClass (Annotator.candidates assertions)) :
    IsAnchorFor annotator coverage assertions
      (annotator.anchor coverage planned.id planned.keyword) := by
  obtain ⟨candidate, isCandidate, _, planned_eq⟩ := ProseUnit.exists_eq_of_mem_plan member
  obtain ⟨listed, compiles⟩ := Annotator.mem_candidates_iff.1 isCandidate
  refine ⟨candidate.1, listed, candidate.2, compiles, ?_⟩
  rw [planned_eq]

/-! ## Walks side by side -/

/-- Whether two units are one node behind siblings with the same texts. -/
def SameUnit (anchorClass : String) (first second : ProseUnit) : Prop :=
  ∃ before otherBefore node, first = ProseUnit.ofNode anchorClass before node ∧
    second = ProseUnit.ofNode anchorClass otherBefore node ∧
    proses anchorClass otherBefore = proses anchorClass before

section Replace

variable
  {annotator : Annotator}
  {related : Node → Node → Prop}
  {replace other : ProseUnit → List Node}
  (areAnchors : ∀ {firstNode secondNode}, related firstNode secondNode →
    firstNode.hasClass annotator.anchorClass = true ∧
      secondNode.hasClass annotator.anchorClass = true)
  (paired : ∀ {before otherBefore : List Node} (node : Node),
    proses annotator.anchorClass otherBefore = proses annotator.anchorClass before →
    ∃ bare, TextEquivalent bare [node] ∧
      Paired related bare (replace (ProseUnit.ofNode annotator.anchorClass before node))
        (other (ProseUnit.ofNode annotator.anchorClass otherBefore node)))

include areAnchors

/-- Siblings with the same texts are followed by others with the same texts. -/
theorem proses_append_of_paired
    {before otherBefore : List Node}
    (sameTexts : proses annotator.anchorClass otherBefore = proses annotator.anchorClass before)
    {bare nodes otherNodes : List Node}
    (pairedNodes : Paired related bare nodes otherNodes) :
    proses annotator.anchorClass (otherBefore ++ otherNodes) =
      proses annotator.anchorClass (before ++ nodes) := by
  rw [proses_append, proses_append, sameTexts, proses_eq_of_paired areAnchors pairedNodes]

include paired

theorem exists_paired_unitsFrom
    {before otherBefore : List Node}
    (nodes : List Node)
    (sameTexts : proses annotator.anchorClass otherBefore = proses annotator.anchorClass before) :
    let units := unitsFrom annotator.anchorClass replace before nodes
    let otherUnits := unitsFrom annotator.anchorClass other otherBefore nodes
    List.Forall₂ (SameUnit annotator.anchorClass) units otherUnits ∧
      ∃ bare, TextEquivalent bare nodes ∧
        Paired related bare (units.flatMap replace) (otherUnits.flatMap other) := by
  induction nodes generalizing before otherBefore with
  | nil => exact ⟨.nil, [], .refl [], .nil⟩
  | cons node rest inductionHypothesis =>
      obtain ⟨bare, equivalent, pairedHere⟩ := paired node sameTexts
      obtain ⟨sameUnits, bareRest, equivalentRest, pairedRest⟩ :=
        inductionHypothesis (proses_append_of_paired areAnchors sameTexts pairedHere)
      refine ⟨.cons ⟨before, otherBefore, node, rfl, rfl, sameTexts⟩ sameUnits,
        bare ++ bareRest, ?_, ?_⟩
      · exact equivalent.append equivalentRest
      · simp only [unitsFrom, List.flatMap_cons]
        exact pairedHere.append pairedRest

theorem exists_paired_replaceChild
    {before otherBefore : List Node}
    (node : Node)
    (sameTexts : proses annotator.anchorClass otherBefore = proses annotator.anchorClass before) :
    List.Forall₂ (SameUnit annotator.anchorClass)
        (annotator.childUnits replace before node)
        (annotator.childUnits other otherBefore node) ∧
      ∃ bare, TextEquivalent bare [node] ∧
        Paired related bare (annotator.replaceChild replace before node)
          (annotator.replaceChild other otherBefore node) := by
  unfold Annotator.childUnits Annotator.replaceChild
  cases isSection : annotator.section? node with
  | none =>
      exact ⟨.cons ⟨before, otherBefore, node, rfl, rfl, sameTexts⟩ .nil, paired node sameTexts⟩
  | some element =>
      obtain ⟨sameUnits, inside, equivalent, pairedInside⟩ :=
        exists_paired_unitsFrom areAnchors paired element.children (Eq.refl (proses _ []))
      rw [Annotator.toNode_of_section?_eq_some isSection]
      exact ⟨sameUnits, [.element element.tag inside], .element element.tag equivalent,
        .element element.tag pairedInside .nil⟩

theorem exists_paired_replaceFrom
    {before otherBefore : List Node}
    (nodes : List Node)
    (sameTexts : proses annotator.anchorClass otherBefore = proses annotator.anchorClass before) :
    List.Forall₂ (SameUnit annotator.anchorClass)
        (annotator.bodyUnitsFrom replace before nodes)
        (annotator.bodyUnitsFrom other otherBefore nodes) ∧
      ∃ bare, TextEquivalent bare nodes ∧
        Paired related bare (annotator.replaceFrom replace before nodes)
          (annotator.replaceFrom other otherBefore nodes) := by
  induction nodes generalizing before otherBefore with
  | nil => exact ⟨.nil, [], .refl [], .nil⟩
  | cons node rest inductionHypothesis =>
      obtain ⟨sameHere, bare, equivalent, pairedHere⟩ :=
        exists_paired_replaceChild areAnchors paired node sameTexts
      obtain ⟨sameRest, bareRest, equivalentRest, pairedRest⟩ :=
        inductionHypothesis (proses_append_of_paired areAnchors sameTexts pairedHere)
      refine ⟨List.rel_append sameHere sameRest, bare ++ bareRest, ?_, ?_⟩
      · exact equivalent.append equivalentRest
      · exact pairedHere.append pairedRest

end Replace

namespace Annotator

/-- Walks through one document with agreeing plans visit the same units and put their anchors in
the same places. -/
theorem exists_paired_annotate
    {annotator : Annotator}
    (isToken : Text.IsToken annotator.anchorClass)
    (coverage otherCoverage : Coverage)
    {agrees : Planned → Planned → Prop}
    {assertions others : List SpecAssertion}
    (plansAgree : PlansAgree annotator.anchorClass agrees assertions others)
    (document : Document) :
    List.Forall₂ (SameUnit annotator.anchorClass)
        (annotator.visits coverage document assertions)
        (annotator.visits otherCoverage document others) ∧
      ∃ bare, TextEquivalent bare [document.root.toNode] ∧
        Paired (annotator.AnchorsAgree coverage otherCoverage agrees) bare
          [(annotator.annotate document assertions coverage).1.root.toNode]
          [(annotator.annotate document others otherCoverage).1.root.toNode] := by
  rw [annotate_fst, annotate_fst, visits, visits, units, units, Document.body?, Element.child?,
    Element.modifyChild, Element.modifyChild]
  cases isSplit : Element.splitAt? "body" document.root.children with
  | none => exact ⟨.nil, _, .refl _, .refl _⟩
  | some parts =>
      obtain ⟨before, body, after⟩ := parts
      obtain ⟨sameUnits, bare, equivalent, paired⟩ :=
        exists_paired_replaceFrom (fun anchors => anchors.hasClass isToken)
          (exists_paired_standIns isToken coverage otherCoverage plansAgree)
          body.children (Eq.refl (proses _ []))
      refine ⟨sameUnits, [.element document.root.tag (before ++ .element body.tag bare :: after)],
        ?_, .element _ ((Paired.refl before).append (.element _ paired (.refl after))) .nil⟩
      have around := (TextEquivalent.element body.tag equivalent).surround before after
      rw [Element.toNode, (Element.eq_of_splitAt?_eq_some isSplit).1]
      apply TextEquivalent.element
      simpa [Element.toNode] using around

end Annotator

end CrossReference
end Conformance
