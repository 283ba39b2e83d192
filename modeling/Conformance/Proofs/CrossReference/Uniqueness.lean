import Conformance.Proofs.CrossReference.Order
import Conformance.Proofs.CrossReference.Persistence
import Conformance.Proofs.Markup.Elements

/-!
# One anchor for each assertion

In a document without anchors nothing is unmatched or found in several places exactly if every
assertion is accepted in one visited unit and no two are accepted at one offset.  Then every
assertion has one anchor in the annotated document, with links to the tests that claim it.
-/

namespace Conformance
namespace CrossReference

open Markup
open Prose (Pattern)

/-- Whether no two assertions are accepted at one offset of a unit. -/
def AcceptedApart
    (anchorClass : String)
    (units : List ProseUnit)
    (assertions : List SpecAssertion) :
    Prop :=
  ∀ unit ∈ units, ∀ first ∈ assertions, ∀ second ∈ assertions, ∀ offset,
    unit.acceptance? anchorClass first = some offset →
    unit.acceptance? anchorClass second = some offset →
    first = second

theorem TextIndex.anchorAt?_eq_none
    {index : TextIndex}
    (noAnchors : index.anchors = [])
    (offset : Nat) :
    index.anchorAt? offset = none := by
  rw [anchorAt?, noAnchors]
  rfl

namespace ProseUnit

variable {anchorClass : String} {unit : ProseUnit}

/-- In a unit without anchors, an assertion is planned for each offset at which one is accepted. -/
theorem planner?_of_anchors_eq_nil
    (noAnchors : unit.index.anchors = [])
    (assertions : List SpecAssertion)
    (offset : Nat) :
    unit.planner? anchorClass assertions offset =
      assertions.find? fun other => unit.acceptance? anchorClass other == some offset := by
  rw [planner?, TextIndex.anchorAt?_eq_none noAnchors]
  rfl

/-- In a unit without anchors, an assertion has a rival if an earlier one is accepted at the same
offset. -/
theorem isSome_rival?_iff
    (noAnchors : unit.index.anchors = [])
    {earlier : List SpecAssertion}
    {assertion : SpecAssertion} :
    (unit.rival? anchorClass earlier assertion).isSome = true ↔
      ∃ other ∈ earlier, ∃ offset, unit.acceptance? anchorClass other = some offset ∧
        unit.acceptance? anchorClass assertion = some offset := by
  rw [rival?]
  cases accepted : unit.acceptance? anchorClass assertion with
  | none => simp
  | some offset =>
      rw [Option.bind_some, planner?_of_anchors_eq_nil noAnchors,
        TextIndex.anchorAt?_eq_none noAnchors]
      cases found : earlier.find? fun other => unit.acceptance? anchorClass other == some offset with
      | none => simpa using found
      | some other =>
          have acceptedThere := List.find?_some found
          have isEarlier := List.mem_of_find?_eq_some found
          simp only [Option.isSome_some, true_iff]
          exact ⟨other, isEarlier, offset, beq_iff_eq.1 acceptedThere, rfl⟩

/-- In a unit without anchors, the place of an assertion is free unless an earlier one is accepted
there. -/
theorem place_eq_free
    (noAnchors : unit.index.anchors = [])
    {earlier : List SpecAssertion}
    {offset : Nat}
    (apart : ∀ other ∈ earlier, unit.acceptance? anchorClass other ≠ some offset)
    (id : String) :
    unit.place (unit.plan anchorClass (Annotator.candidates earlier)) id offset = .free := by
  have noPlanner : unit.planner? anchorClass earlier offset = none := by
    rw [planner?_of_anchors_eq_nil noAnchors, List.find?_eq_none]
    intro other isEarlier
    simpa using apart other isEarlier
  rw [place_plan_candidates, noPlanner, TextIndex.anchorAt?_eq_none noAnchors]

end ProseUnit

/-- An assertion is found in several places if its outcome or a warning says so. -/
theorem Findings.isMatchedMultiple_iff {findings : Findings} {id : String} :
    findings.isMatchedMultiple id = true ↔
      findings.outcome? id = some .matchedMultiple ∨
        ∃ conflictingWith, 0 < findings.warnings.count (.matchedMultiple id conflictingWith) := by
  rw [isMatchedMultiple, Bool.or_eq_true, beq_iff_eq, List.any_eq_true]
  apply or_congr_right
  constructor
  · rintro ⟨warning, member, about⟩
    cases warning with
    | matchedMultiple warned conflictingWith =>
        obtain rfl : warned = id := by simpa [Warning.isMatchedMultiple] using about
        exact ⟨conflictingWith, List.count_pos_iff.2 member⟩
    | unmatched warned => cases about
  · rintro ⟨conflictingWith, positive⟩
    exact ⟨_, List.count_pos_iff.1 positive, by simp [Warning.isMatchedMultiple]⟩

namespace Annotator

variable {annotator : Annotator}

/-- In a document without anchors no visited unit has one. -/
theorem anchors_eq_nil_of_mem_visits
    {document : Document}
    (noAnchors :
      Node.countTags (fun tag => tag.hasClass annotator.anchorClass) document.root.children = 0)
    {coverage : Coverage}
    {assertions : List SpecAssertion}
    {unit : ProseUnit}
    (visited : unit ∈ annotator.visits coverage document assertions) :
    unit.index.anchors = [] := by
  have index_eq : unit.index = TextIndex.ofNodes annotator.anchorClass [unit.node] :=
    congrArg ProseUnit.index (eq_ofNode_of_mem_units visited)
  have isNode := List.mem_map_of_mem (f := ProseUnit.node) visited
  rw [visits, units] at isNode
  cases isBody : document.body? with
  | none => simp [isBody] at isNode
  | some body =>
      simp only [isBody, map_node_bodyUnitsFrom] at isNode
      have noneInside := countTagsIn_eq_zero_of_mem_unitNodes noAnchors isBody unit.node isNode
      rw [index_eq, TextIndex.anchors_ofNodes, anchorsFrom_marks_node_eq_nil unit.node noneInside]

/-- An assertion is not matched exactly if it is accepted in no visited unit. -/
theorem outcome?_eq_unmatched_iff
    (document : Document)
    {earlier later : List SpecAssertion}
    {assertion : SpecAssertion}
    (unique : ∀ other ∈ earlier ++ later, other.id ≠ assertion.id)
    (coverage : Coverage) :
    (annotator.annotate document (earlier ++ assertion :: later) coverage).2.outcome?
        assertion.id = some .unmatched ↔
      (annotator.visits coverage document (earlier ++ assertion :: later)).countP
        (fun unit => unit.accepts annotator.anchorClass assertion) = 0 := by
  obtain ⟨outcome_eq, _⟩ := annotator.annotate_accounts document
    (earlier ++ assertion :: later) coverage (count_id_eq_one unique)
  rw [outcome_eq, Option.some_inj, getD_outcomeOf_eq_unmatched_iff,
    annotator.length_placesOf_visits unique]

/-- An assertion is found in several places if it is accepted in several visited units, or if it has
a rival in one. -/
theorem isMatchedMultiple_annotate_iff
    (document : Document)
    {earlier later : List SpecAssertion}
    {assertion : SpecAssertion}
    (unique : ∀ other ∈ earlier ++ later, other.id ≠ assertion.id)
    (coverage : Coverage) :
    (annotator.annotate document (earlier ++ assertion :: later) coverage).2.isMatchedMultiple
        assertion.id = true ↔
      2 ≤ (annotator.visits coverage document (earlier ++ assertion :: later)).countP
          (fun unit => unit.accepts annotator.anchorClass assertion) ∨
        ∃ unit ∈ annotator.visits coverage document (earlier ++ assertion :: later),
          (unit.rival? annotator.anchorClass earlier assertion).isSome = true := by
  obtain ⟨_, _, count_again, count_conflict⟩ := annotator.annotate_accounts document
    (earlier ++ assertion :: later) coverage (count_id_eq_one unique)
  rw [Findings.isMatchedMultiple_iff, outcome?_eq_matchedMultiple_iff document unique]
  constructor
  · rintro (several | ⟨conflictingWith, positive⟩)
    · exact .inl several
    · cases conflictingWith with
      | none =>
          rw [count_again, annotator.length_placesOf_visits unique] at positive
          left
          omega
      | some owner =>
          rw [count_conflict, annotator.count_taken_placesOf_visits unique,
            List.countP_pos_iff] at positive
          obtain ⟨unit, visited, isRival⟩ := positive
          right
          refine ⟨unit, visited, ?_⟩
          rw [beq_iff_eq.1 isRival]
          rfl
  · rintro (several | ⟨unit, visited, isRival⟩)
    · exact .inl several
    · obtain ⟨owner, isOwner⟩ := Option.isSome_iff_exists.1 isRival
      right
      refine ⟨some owner, ?_⟩
      rw [count_conflict, annotator.count_taken_placesOf_visits unique, List.countP_pos_iff]
      exact ⟨unit, visited, beq_iff_eq.2 isOwner⟩

/-- Of two members of a list, one stands before the other unless they are equal. -/
theorem eq_or_before_of_mem
    {Item : Type}
    {items : List Item}
    {first second : Item}
    (isFirst : first ∈ items)
    (isSecond : second ∈ items) :
    first = second ∨
      (∃ earlier later, items = earlier ++ second :: later ∧ first ∈ earlier) ∨
      ∃ earlier later, items = earlier ++ first :: later ∧ second ∈ earlier := by
  obtain ⟨earlier, later, rfl⟩ := List.append_of_mem isSecond
  rcases List.mem_append.1 isFirst with before | notBefore
  · exact .inr (.inl ⟨earlier, later, rfl, before⟩)
  · rcases List.mem_cons.1 notBefore with same | behind
    · exact .inl same
    · obtain ⟨between, rest, rfl⟩ := List.append_of_mem behind
      refine .inr (.inr ⟨earlier ++ second :: between, rest, ?_, ?_⟩)
      · simp
      · simp

section NoAnchors

variable
  {document : Document}
  (noAnchors :
    Node.countTags (fun tag => tag.hasClass annotator.anchorClass) document.root.children = 0)
  {assertions : List SpecAssertion}
  (distinct : (assertions.map SpecAssertion.id).Nodup)
  (coverage : Coverage)

include noAnchors distinct

/-- In a document without anchors, an assertion that is accepted where an earlier one is counts as
found in several places. -/
theorem isMatchedMultiple_of_shared
    {earlier later : List SpecAssertion}
    {first second : SpecAssertion}
    (parts : assertions = earlier ++ second :: later)
    (isEarlier : first ∈ earlier)
    {unit : ProseUnit}
    (visited : unit ∈ annotator.visits coverage document assertions)
    {offset : Nat}
    (firstThere : unit.acceptance? annotator.anchorClass first = some offset)
    (secondThere : unit.acceptance? annotator.anchorClass second = some offset) :
    (annotator.annotate document assertions coverage).2.isMatchedMultiple second.id = true := by
  subst parts
  apply (isMatchedMultiple_annotate_iff document (id_ne_of_nodup distinct) coverage).2
  right
  refine ⟨unit, visited, ?_⟩
  apply (ProseUnit.isSome_rival?_iff (anchors_eq_nil_of_mem_visits noAnchors visited)).2
  exact ⟨first, isEarlier, offset, firstThere, secondThere⟩

/-- In a document without anchors every assertion is found, and none in several places, exactly if
each is accepted in one visited unit and no two are accepted at one offset. -/
theorem foundOnce_iff :
    let findings := (annotator.annotate document assertions coverage).2
    let visits := annotator.visits coverage document assertions
    (∀ assertion ∈ assertions, findings.outcome? assertion.id ≠ some .unmatched ∧
        ¬findings.isMatchedMultiple assertion.id = true) ↔
      (∀ assertion ∈ assertions,
        visits.countP (fun unit => unit.accepts annotator.anchorClass assertion) = 1) ∧
        AcceptedApart annotator.anchorClass visits assertions := by
  intro findings visits
  constructor
  · intro foundOnce
    constructor
    · intro assertion listed
      obtain ⟨earlier, later, rfl⟩ := List.append_of_mem listed
      obtain ⟨found, notMultiple⟩ := foundOnce assertion listed
      have unique := id_ne_of_nodup distinct
      rw [Ne, outcome?_eq_unmatched_iff document unique] at found
      rw [isMatchedMultiple_annotate_iff document unique, not_or] at notMultiple
      have atMostOnce := notMultiple.1
      simp only [visits]
      omega
    · intro unit visited first isFirst second isSecond offset firstThere secondThere
      rcases eq_or_before_of_mem isFirst isSecond with
        same | ⟨earlier, later, parts, isEarlier⟩ | ⟨earlier, later, parts, isEarlier⟩
      · exact same
      · exact ((foundOnce second isSecond).2 (isMatchedMultiple_of_shared noAnchors distinct coverage
          parts isEarlier visited firstThere secondThere)).elim
      · exact ((foundOnce first isFirst).2 (isMatchedMultiple_of_shared noAnchors distinct coverage
          parts isEarlier visited secondThere firstThere)).elim
  · rintro ⟨once, apart⟩ assertion listed
    have acceptedOnce := once assertion listed
    obtain ⟨earlier, later, rfl⟩ := List.append_of_mem listed
    have unique := id_ne_of_nodup distinct
    simp only [findings, visits] at acceptedOnce ⊢
    rw [Ne, outcome?_eq_unmatched_iff document unique,
      isMatchedMultiple_annotate_iff document unique, acceptedOnce]
    refine ⟨by omega, ?_⟩
    rintro (several | ⟨unit, visited, isRival⟩)
    · omega
    · have noneThere := anchors_eq_nil_of_mem_visits noAnchors visited
      obtain ⟨other, isEarlier, offset, otherThere, there⟩ :=
        (ProseUnit.isSome_rival?_iff noneThere).1 isRival
      have same := apart unit visited other (by simp [isEarlier]) assertion listed offset
        otherThere there
      exact unique other (by simp [isEarlier]) (by rw [same])

variable (apart :
  AcceptedApart annotator.anchorClass (annotator.visits coverage document assertions) assertions)

include apart

/-- If no two assertions are accepted at one offset, an assertion finds a free place wherever it is
accepted. -/
theorem count_free_placesOf_visits
    {assertion : SpecAssertion}
    (listed : assertion ∈ assertions) :
    let visits := annotator.visits coverage document assertions
    (placesOf assertion.id (visits.flatMap
        (ProseUnit.sightings annotator.anchorClass (candidates assertions)))).count .free =
      visits.countP fun unit => unit.accepts annotator.anchorClass assertion := by
  intro visits
  obtain ⟨earlier, later, rfl⟩ := List.append_of_mem listed
  have unique := id_ne_of_nodup distinct
  rw [← annotator.length_placesOf_visits unique, List.count_eq_length,
    annotator.placesOf_visits unique]
  intro place isPlace
  obtain ⟨unit, visited, place_eq⟩ := List.mem_filterMap.1 isPlace
  obtain ⟨offset, there, rfl⟩ := Option.map_eq_some_iff.1 place_eq
  refine (ProseUnit.place_eq_free (anchors_eq_nil_of_mem_visits noAnchors visited) ?_ _).symm
  intro other isEarlier otherThere
  have same := apart unit visited other (by simp [isEarlier]) assertion listed offset
    otherThere there
  exact unique other (by simp [isEarlier]) (by rw [same])

/-- As many anchors of an assertion stand in the annotated document as there are visited units in
which it is accepted. -/
theorem anchorsOf_annotate_eq_countP
    (isToken : Text.IsToken annotator.anchorClass)
    {assertion : SpecAssertion}
    (listed : assertion ∈ assertions) :
    anchorsOf annotator.anchorClass assertion.id
        (annotator.annotate document assertions coverage).1 =
      (annotator.visits coverage document assertions).countP fun unit =>
        unit.accepts annotator.anchorClass assertion := by
  have noneBefore : anchorsOf annotator.anchorClass assertion.id document = 0 :=
    Node.countTags_eq_zero_of_imp (fun tag isAnchor => (Bool.and_eq_true_iff.1 isAnchor).1) _
      noAnchors
  rw [anchorsOf_annotate annotator isToken, noneBefore, Nat.zero_add]
  exact count_free_placesOf_visits noAnchors distinct coverage apart listed

end NoAnchors

/-! ## The anchor of an assertion -/

/-- Among elements of the class of anchors, an anchor is the only one in itself. -/
theorem toNode_eq_of_mem_elementsIn_anchor
    {asked : Tag → Bool}
    (onlyAnchors : ∀ tag, asked tag = true → tag.hasClass annotator.anchorClass = true)
    {coverage : Coverage}
    {id : String}
    {keyword : Keyword}
    {element : Element}
    (inside : element ∈ Node.elementsIn asked (annotator.anchor coverage id keyword)) :
    asked (annotator.anchorTag id keyword) = true ∧
      element.toNode = annotator.anchor coverage id keyword := by
  have count := annotator.countTagsIn_anchor onlyAnchors coverage id keyword
  by_cases isAsked : asked (annotator.anchorTag id keyword) = true
  · rw [if_pos isAsked] at count
    obtain ⟨anchorElement, tag_eq, node_eq⟩ : ∃ anchorElement : Element,
        anchorElement.tag = annotator.anchorTag id keyword ∧
          annotator.anchor coverage id keyword = anchorElement.toNode :=
      ⟨⟨annotator.anchorTag id keyword, _⟩, rfl, rfl⟩
    rw [node_eq] at count inside
    rw [Node.elementsIn_of_countTagsIn_eq_one (tag_eq ▸ isAsked) count,
      List.mem_singleton] at inside
    exact ⟨isAsked, by rw [inside, node_eq]⟩
  · rw [if_neg isAsked, ← Node.length_elementsIn, List.length_eq_zero_iff] at count
    rw [count] at inside
    cases inside

/-- An element of the class of anchors in an annotated document is the anchor of an assertion, if the
document had none. -/
theorem isAnchorFor_of_mem_elements
    (isToken : Text.IsToken annotator.anchorClass)
    {document : Document}
    {asked : Tag → Bool}
    (onlyAnchors : ∀ tag, asked tag = true → tag.hasClass annotator.anchorClass = true)
    (absent : Node.countTags asked [document.root.toNode] = 0)
    {coverage : Coverage}
    {assertions : List SpecAssertion}
    {element : Element}
    (listed :
      element ∈ Node.elements asked
        [(annotator.annotate document assertions coverage).1.root.toNode]) :
    ∃ assertion ∈ assertions, ∃ pattern, Pattern.ofAssertion assertion = .ok pattern ∧
      asked (annotator.anchorTag assertion.id pattern.keyword) = true ∧
      element.toNode = annotator.anchor coverage assertion.id pattern.keyword := by
  obtain ⟨_, bare, equivalent, paired⟩ := exists_paired_annotate isToken coverage coverage
    (plansAgree_of_perm annotator coverage (.refl assertions)) document
  rw [← equivalent.countTags_eq asked] at absent
  obtain ⟨_, _, ⟨planned, _, ⟨isAnchor, _⟩, rfl, rfl⟩, inside⟩ :=
    paired.exists_of_mem_elements absent listed
  obtain ⟨assertion, isAssertion, pattern, compiles, anchor_eq⟩ := isAnchor
  rw [anchor_eq] at inside
  exact ⟨assertion, isAssertion, pattern, compiles,
    toNode_eq_of_mem_elementsIn_anchor onlyAnchors inside⟩

/-- In a document without anchors, an assertion that is accepted in one visited unit, at an offset
where no other one is, gets one anchor. -/
theorem exists_elements_annotate_eq
    (isToken : Text.IsToken annotator.anchorClass)
    {document : Document}
    (noAnchors :
      Node.countTags (fun tag => tag.hasClass annotator.anchorClass) [document.root.toNode] = 0)
    {assertions : List SpecAssertion}
    (distinct : (assertions.map SpecAssertion.id).Nodup)
    (coverage : Coverage)
    (apart :
      AcceptedApart annotator.anchorClass (annotator.visits coverage document assertions) assertions)
    {assertion : SpecAssertion}
    (listed : assertion ∈ assertions)
    (once :
      (annotator.visits coverage document assertions).countP
        (fun unit => unit.accepts annotator.anchorClass assertion) = 1) :
    ∃ (anchor : Element) (pattern : Pattern), Pattern.ofAssertion assertion = .ok pattern ∧
      anchor.toNode = annotator.anchor coverage assertion.id pattern.keyword ∧
      Node.elements (isAnchorOf annotator.anchorClass assertion.id)
        [(annotator.annotate document assertions coverage).1.root.toNode] = [anchor] := by
  have onlyAnchors (tag : Tag)
      (isAnchor : isAnchorOf annotator.anchorClass assertion.id tag = true) :
      tag.hasClass annotator.anchorClass = true :=
    (Bool.and_eq_true_iff.1 isAnchor).1
  have absent := Node.countTags_eq_zero_of_imp onlyAnchors _ noAnchors
  have sameTag := annotator.tag_root_annotate coverage document assertions
  simp only [Element.toNode, Node.countTags, Node.countTagsIn, Nat.add_eq_zero_iff] at noAnchors
  have count := anchorsOf_annotate_eq_countP noAnchors.1.2 distinct coverage apart isToken listed
  rw [once] at count
  have length_eq :
      (Node.elements (isAnchorOf annotator.anchorClass assertion.id)
        [(annotator.annotate document assertions coverage).1.root.toNode]).length = 1 := by
    simp only [Element.toNode, Node.countTags, Node.countTagsIn, Nat.add_eq_zero_iff] at absent
    rw [Node.length_elements]
    simp only [Element.toNode, Node.countTags, Node.countTagsIn, sameTag, absent.1.1]
    rw [← anchorsOf, count]
  obtain ⟨anchor, elements_eq⟩ := List.length_eq_one_iff.1 length_eq
  obtain ⟨other, isOther, pattern, compiles, isAsked, anchor_eq⟩ :=
    isAnchorFor_of_mem_elements isToken onlyAnchors absent
      (elements_eq ▸ List.mem_cons_self)
  have sameId : other.id = assertion.id := by
    have named := (Bool.and_eq_true_iff.1 isAsked).2
    rw [assertionOf?_anchorTag] at named
    simpa using named
  obtain rfl : other = assertion := List.inj_on_of_nodup_map distinct isOther listed sameId
  exact ⟨anchor, pattern, compiles, anchor_eq, elements_eq⟩

/-- The anchor of an assertion has the class of anchors, and the class and the id of the assertion
for its own id. -/
theorem isAnchorOf_eq (anchorClass id : String) :
    isAnchorOf anchorClass id = fun tag =>
      tag.hasClass anchorClass && tag.attribute? "id" == some (anchorClass ++ "." ++ id) := by
  funext tag
  rw [isAnchorOf]
  congr 1
  rw [Bool.eq_iff_iff, beq_iff_eq, beq_iff_eq, assertionOf?, Option.bind_eq_some_iff]
  constructor
  · rintro ⟨value, isValue, named⟩
    obtain ⟨rest, isRest, rfl⟩ := Option.map_eq_some_iff.1 named
    rw [Text.after?_eq_some_iff] at isRest
    rw [isValue, Option.some_inj, ← String.toList_inj, isRest]
    simp
  · intro isValue
    refine ⟨_, isValue, Option.map_eq_some_iff.2 ⟨id.toList, ?_, String.ofList_toList⟩⟩
    rw [Text.after?_eq_some_iff]
    simp

/-- The tests that an anchor links to: the texts of its links behind the first one, which leads to
the anchor itself. -/
def linkedTests (anchor : Element) : List String :=
  (anchor.children.filterMap fun child =>
    (child.toElement?.filter fun element => element.tag.name == "a").map
      Element.textContent).tail

/-- An anchor links to the tests of its assertion. -/
theorem linkedTests_eq
    {coverage : Coverage}
    {id : String}
    {keyword : Keyword}
    {anchor : Element}
    (isAnchor : anchor.toNode = annotator.anchor coverage id keyword) :
    linkedTests anchor = coverage.testsFor id := by
  obtain ⟨tag, children⟩ := anchor
  obtain ⟨_, rfl⟩ := Node.element.inj isAnchor
  have links (tests : List String) :
      ((tests.flatMap annotator.testLink).filterMap fun child =>
        (child.toElement?.filter fun element => element.tag.name == "a").map
          Element.textContent) = tests := by
    induction tests with
    | nil => rfl
    | cons test tests inductionHypothesis =>
        rw [List.flatMap_cons, List.filterMap_append, inductionHypothesis]
        simp [testLink, Node.toElement?, Option.filter, Element.textContent, Node.textContents,
          Node.textContent]
  rw [linkedTests, List.filterMap_append, links]
  simp [Node.toElement?, Option.filter]

end Annotator

end CrossReference
end Conformance
