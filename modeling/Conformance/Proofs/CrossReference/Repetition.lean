import Conformance.Proofs.CrossReference.Acceptance
import Conformance.Proofs.CrossReference.Growth

/-!
# Annotating twice

After a walk every place at which an assertion is accepted in an element has an anchor, and the
next walk recognizes it.  An anchor that was put into a text node among the children of the body or
of a section stands beside the halves of that text node, so that it is not in the unit when one of
them is visited again.
-/

namespace Conformance
namespace CrossReference

open Markup
open Prose (Pattern)

/-- Whether a node is a text node. -/
def isTextNode : Node → Bool
  | .text _ => true
  | _ => false

/-- Whether every place at which one of some assertions is accepted in a unit has an anchor. -/
def ProseUnit.IsSettled
    (anchorClass : String)
    (assertions : List SpecAssertion)
    (unit : ProseUnit) :
    Prop :=
  ∀ assertion ∈ assertions, ∀ offset,
    unit.acceptance? anchorClass assertion = some offset →
      (unit.index.anchorAt? offset).isSome = true

namespace Annotator

/-- The units of a child of the body in which an anchor of an earlier walk is not recognized: text
nodes, and whatever stands in a section that is an anchor itself. -/
def exposedOfChild (annotator : Annotator) (before : List Node) (node : Node) : List ProseUnit :=
  (annotator.childUnits ProseUnit.kept before node).filter fun unit =>
    isTextNode unit.node ||
      (annotator.section? node).isSome && node.hasClass annotator.anchorClass

/-- Whether a unit of a document, as it stands, is exposed. -/
def IsExposed (annotator : Annotator) (document : Document) (unit : ProseUnit) : Prop :=
  ∃ body, document.body? = some body ∧
    ∃ front node back, body.children = front ++ node :: back ∧
      unit ∈ annotator.exposedOfChild front node

end Annotator

/-! ## Settled units -/

theorem TextIndex.isSome_anchorAt? (index : TextIndex) (offset : Nat) :
    (index.anchorAt? offset).isSome = true ↔ ∃ site ∈ index.anchors, site.offset = offset := by
  simp [anchorAt?]

namespace ProseUnit

variable {anchorClass : String} (assertions : List SpecAssertion)

/-- No anchor is planned for a unit exactly if it is settled. -/
theorem plan_eq_nil_iff {unit : ProseUnit} :
    unit.plan anchorClass (Annotator.candidates assertions) = [] ↔
      unit.IsSettled anchorClass assertions := by
  constructor
  · intro empty assertion listed offset accepted
    obtain ⟨pattern, compiles, acceptedAt⟩ := acceptance?_eq_some_iff.1 accepted
    have isCandidate : (assertion, pattern) ∈ Annotator.candidates assertions :=
      Annotator.mem_candidates_iff.2 ⟨listed, compiles⟩
    rw [Option.isSome_iff_ne_none]
    intro absent
    obtain ⟨planned, member, _⟩ := exists_mem_plan isCandidate acceptedAt absent
    rw [empty] at member
    cases member
  · intro settled
    rw [List.eq_nil_iff_forall_not_mem]
    intro planned member
    obtain ⟨absent, candidate, isCandidate, acceptedAt⟩ := exists_candidate_of_mem_plan member
    obtain ⟨listed, compiles⟩ := Annotator.mem_candidates_iff.1 isCandidate
    have present := settled candidate.1 listed planned.offset
      (acceptance?_eq_some_iff.2 ⟨candidate.2, compiles, acceptedAt⟩)
    rw [absent] at present
    cases present

theorem isSettled_of_noText
    {node : Node}
    (noText : (marks anchorClass [node]).any Piece.isText = false)
    (before : List Node) :
    (ofNode anchorClass before node).IsSettled anchorClass assertions := by
  intro assertion _ offset accepted
  rw [acceptance?_eq_none_of_noText noText] at accepted
  cases accepted

theorem isSettled_of_hasClass
    {node : Node}
    (isAnchor : node.hasClass anchorClass = true)
    (before : List Node) :
    (ofNode anchorClass before node).IsSettled anchorClass assertions := by
  apply isSettled_of_noText
  cases node with
  | element tag children => simp [marks_anchor_cons isAnchor, Piece.isText]
  | text content => cases isAnchor
  | comment content => cases isAnchor

end ProseUnit

namespace Annotator

variable {annotator : Annotator} (coverage : Coverage) {assertions : List SpecAssertion}

/-- A settled unit stays as it is. -/
theorem standIns_eq_kept
    {unit : ProseUnit}
    (settled : unit.IsSettled annotator.anchorClass assertions) :
    annotator.standIns coverage (candidates assertions) unit = unit.kept := by
  rw [standIns, insertionFor, (ProseUnit.plan_eq_nil_iff assertions).2 settled, putAll,
    List.mergeSort_nil]
  rfl

end Annotator

/-! ## What comes to stand for a unit is settled -/

theorem eq_of_singleton_eq_append_cons
    {Item : Type}
    {first member : Item}
    {front back : List Item}
    (parts : [first] = front ++ member :: back) :
    front = [] ∧ first = member := by
  cases front with
  | nil => exact ⟨rfl, (List.cons.inj parts).1⟩
  | cons other front => simp at parts

/-- What holds of all nodes, of text and of the inserted node, but of no other element than anchors,
holds of all nodes after an insertion: the text node that is divided stands among them. -/
theorem Inserted.forall_mem
    {anchorClass : String}
    {node : Node}
    {offset : Nat}
    {first second : List Node}
    (inserted : Inserted anchorClass node offset first second)
    (holds : Node → Prop)
    (ofText : ∀ content, holds (.text content))
    (ofNode : holds node)
    (onlyAnchors :
      ∀ tag children, holds (.element tag children) → tag.hasClass anchorClass = true)
    (ofFirst : ∀ member ∈ first, holds member) :
    ∀ member ∈ second, holds member := by
  obtain ⟨surroundings, content, position, isOpen, _, _⟩ := inserted
  cases surroundings with
  | inside front tag inner back =>
      have carries := onlyAnchors tag (inner.fill [.text content])
        (ofFirst _ (by simp [Surroundings.fill]))
      rw [isOpen.1] at carries
      cases carries
  | siblings front back =>
      obtain ⟨before, after, _, divide_eq, _⟩ := exists_halves content position node
      have half (characters : List Char) (member : Node) (isHalf : member ∈ textNode characters) :
          holds member := by
        cases characters with
        | nil => cases isHalf
        | cons character rest =>
            rw [textNode] at isHalf
            cases List.mem_singleton.1 isHalf
            exact ofText _
      intro member isMember
      simp only [Surroundings.fill, divide_eq, List.mem_append, List.mem_cons] at isMember
      rcases isMember with (inFront | isBefore | rfl | isAfter) | inBack
      · exact ofFirst member (by simp [Surroundings.fill, inFront])
      · exact half before member isBefore
      · exact ofNode
      · exact half after member isAfter
      · exact ofFirst member (by simp [Surroundings.fill, inBack])

theorem InsertedAll.forall_mem
    {annotator : Annotator}
    {coverage : Coverage}
    {plan : List Planned}
    {first last : List Node}
    (inserted : InsertedAll annotator coverage plan first last)
    (holds : Node → Prop)
    (ofText : ∀ content, holds (.text content))
    (ofAnchor : ∀ id keyword, holds (annotator.anchor coverage id keyword))
    (onlyAnchors :
      ∀ tag children, holds (.element tag children) → tag.hasClass annotator.anchorClass = true)
    (ofFirst : ∀ member ∈ first, holds member) :
    ∀ member ∈ last, holds member := by
  induction inserted with
  | nil nodes => exact ofFirst
  | cons insertedFirst _ inductionHypothesis =>
      apply inductionHypothesis
      exact insertedFirst.forall_mem holds ofText (ofAnchor _ _) onlyAnchors ofFirst

namespace Annotator

theorem isSome_section?_element (annotator : Annotator) (tag : Tag) (children : List Node) :
    (annotator.section? (.element tag children)).isSome =
      (tag.attribute? "class" == some annotator.implementationClass) := by
  rw [section?, Node.toElement?, Option.isSome_filter]
  rfl

/-- A section is still one when its children are exchanged. -/
theorem section?_replaceSection
    {annotator : Annotator}
    {node : Node}
    {element : Element}
    (isSection : annotator.section? node = some element)
    (replace : ProseUnit → List Node) :
    annotator.section? (annotator.replaceSection replace element).toNode =
      some (annotator.replaceSection replace element) := by
  have isElement := toNode_of_section?_eq_some isSection
  subst isElement
  obtain ⟨_, isMarked⟩ := Option.filter_eq_some_iff.1 isSection
  exact Option.filter_eq_some_iff.2 ⟨rfl, isMarked⟩

section Settled

variable
  {annotator : Annotator}
  (isToken : Text.IsToken annotator.anchorClass)
  (coverage : Coverage)
  (assertions : List SpecAssertion)

include isToken

/-- What alone comes to stand for a unit has the anchors of the unit and those that were planned. -/
theorem isSome_anchorAt?_of_standIns_eq
    {before : List Node}
    {node changed : Node}
    (standIns_eq :
      annotator.standIns coverage (candidates assertions)
        (ProseUnit.ofNode annotator.anchorClass before node) = [changed])
    (offset : Nat) :
    ((ProseUnit.ofNode annotator.anchorClass before changed).index.anchorAt? offset).isSome =
        true ↔
      (∃ planned ∈ (ProseUnit.ofNode annotator.anchorClass before node).plan
          annotator.anchorClass (candidates assertions), planned.offset = offset) ∨
        ((ProseUnit.ofNode annotator.anchorClass before node).index.anchorAt? offset).isSome =
          true := by
  have sites :=
    annotator.anchors_standIns_perm coverage (candidates assertions) isToken before node
  simp only [standIns_eq] at sites
  rw [TextIndex.isSome_anchorAt?, TextIndex.isSome_anchorAt?, ProseUnit.ofNode, ProseUnit.ofNode,
    TextIndex.anchors_ofNodes, TextIndex.anchors_ofNodes]
  simp only [sites.mem_iff, List.mem_append, List.mem_map, or_and_right, exists_or,
    exists_exists_and_eq_and]
  rfl

/-- What alone comes to stand for a unit has its text, and an anchor at every place at which an
assertion is accepted. -/
theorem isSettled_of_standIns_eq
    {before : List Node}
    {node changed : Node}
    (standIns_eq :
      annotator.standIns coverage (candidates assertions)
        (ProseUnit.ofNode annotator.anchorClass before node) = [changed]) :
    (ProseUnit.ofNode annotator.anchorClass before changed).IsSettled
      annotator.anchorClass assertions := by
  by_cases noText : (marks annotator.anchorClass [node]).any Piece.isText = false
  · have settled := ProseUnit.isSettled_of_noText assertions noText before
    rw [standIns_eq_kept coverage settled] at standIns_eq
    cases standIns_eq
    exact settled
  obtain ⟨sorted, isPerm, inserted⟩ :=
    annotator.insertedAll_standIns coverage (candidates assertions) before node
  intro assertion listed offset accepted
  have holdsText :
      (marks annotator.anchorClass [changed]).any Piece.isText =
        (marks annotator.anchorClass [node]).any Piece.isText := by
    rw [Bool.not_eq_false] at noText
    rw [noText, ← Bool.not_eq_false]
    intro changedNoText
    rw [ProseUnit.acceptance?_eq_none_of_noText changedNoText] at accepted
    cases accepted
  have sameText := inserted.proseOf_marks_eq isToken
  rw [standIns_eq] at sameText
  rw [ProseUnit.acceptance?_congr rfl sameText holdsText] at accepted
  obtain ⟨pattern, compiles, acceptedAt⟩ := ProseUnit.acceptance?_eq_some_iff.1 accepted
  rw [isSome_anchorAt?_of_standIns_eq isToken coverage assertions standIns_eq]
  cases standing : (ProseUnit.ofNode annotator.anchorClass before node).index.anchorAt? offset with
  | some site => exact .inr rfl
  | none =>
      have isCandidate : (assertion, pattern) ∈ candidates assertions :=
        mem_candidates_iff.2 ⟨listed, compiles⟩
      exact .inl (ProseUnit.exists_mem_plan isCandidate acceptedAt standing)

omit isToken in
/-- A node that is no text node has one stand-in, which is a section exactly if the node is. -/
theorem exists_standIns_eq
    {node : Node}
    (notText : isTextNode node = false)
    (before : List Node) :
    ∃ changed,
      annotator.standIns coverage (candidates assertions)
          (ProseUnit.ofNode annotator.anchorClass before node) = [changed] ∧
        (annotator.section? changed).isSome = (annotator.section? node).isSome := by
  cases node with
  | text content => cases notText
  | comment content =>
      have noText : (marks annotator.anchorClass [.comment content]).any Piece.isText = false := by
        simp
      have settled := ProseUnit.isSettled_of_noText assertions noText before
      exact ⟨.comment content, standIns_eq_kept coverage settled, rfl⟩
  | element tag children =>
      obtain ⟨_, _, inserted⟩ := annotator.insertedAll_standIns coverage (candidates assertions)
        before (.element tag children)
      obtain ⟨changed, standIns_eq⟩ := inserted.exists_eq_element
      refine ⟨.element tag changed, standIns_eq, ?_⟩
      rw [isSome_section?_element, isSome_section?_element]

/-- What comes to stand for a text node is text and anchors. -/
theorem text_or_anchor_of_mem_standIns
    {before : List Node}
    {node member : Node}
    (isText : isTextNode node = true)
    (isMember :
      member ∈ annotator.standIns coverage (candidates assertions)
        (ProseUnit.ofNode annotator.anchorClass before node)) :
    isTextNode member = true ∨
      ∃ id keyword, member = annotator.anchor coverage id keyword := by
  obtain ⟨_, _, inserted⟩ :=
    annotator.insertedAll_standIns coverage (candidates assertions) before node
  let textOrAnchor (member : Node) : Prop :=
    isTextNode member = true ∨ ∃ id keyword, member = annotator.anchor coverage id keyword
  refine inserted.forall_mem textOrAnchor ?_ ?_ ?_ ?_ member isMember
  · intro content
    exact .inl rfl
  · intro id keyword
    exact .inr ⟨id, keyword, rfl⟩
  · rintro tag children (notText | ⟨id, keyword, isAnchor⟩)
    · cases notText
    · cases isAnchor
      exact annotator.hasClass_anchorTag isToken id keyword
  · intro given isGiven
    rw [List.mem_singleton.1 isGiven]
    exact .inl isText

/-- Whatever comes to stand for a unit and is no text node is settled; it is an anchor unless it is
a section exactly if the unit is. -/
theorem isSettled_of_mem_standIns
    {before front back : List Node}
    {node member : Node}
    (parts :
      annotator.standIns coverage (candidates assertions)
        (ProseUnit.ofNode annotator.anchorClass before node) = front ++ member :: back)
    (notText : isTextNode member = false) :
    (ProseUnit.ofNode annotator.anchorClass (before ++ front) member).IsSettled
        annotator.anchorClass assertions ∧
      (member.hasClass annotator.anchorClass = true ∨
        (annotator.section? member).isSome = (annotator.section? node).isSome) := by
  by_cases isText : isTextNode node = true
  · have isAnchor : member.hasClass annotator.anchorClass = true := by
      have isMember : member ∈ annotator.standIns coverage (candidates assertions)
          (ProseUnit.ofNode annotator.anchorClass before node) := by
        rw [parts]
        exact List.mem_append_cons_self
      rcases text_or_anchor_of_mem_standIns isToken coverage assertions isText isMember with
        isText | ⟨id, keyword, rfl⟩
      · rw [notText] at isText
        cases isText
      · exact annotator.hasClass_anchor isToken coverage id keyword
    exact ⟨ProseUnit.isSettled_of_hasClass assertions isAnchor _, .inl isAnchor⟩
  · rw [Bool.not_eq_true] at isText
    obtain ⟨changed, standIns_eq, sameSection⟩ :=
      exists_standIns_eq coverage assertions isText before
    have settled := isSettled_of_standIns_eq isToken coverage assertions standIns_eq
    obtain ⟨rfl, rfl⟩ := eq_of_singleton_eq_append_cons (standIns_eq.symm.trans parts)
    rw [List.append_nil]
    exact ⟨settled, .inr sameSection⟩

/-- Among what comes to stand for siblings everything but text nodes is settled. -/
theorem text_or_settled_of_mem_unitsFrom
    {before nodes : List Node}
    {unit : ProseUnit}
    (member :
      let standIns := annotator.standIns coverage (candidates assertions)
      unit ∈ unitsFrom annotator.anchorClass ProseUnit.kept before
        ((unitsFrom annotator.anchorClass standIns before nodes).flatMap standIns)) :
    isTextNode unit.node = true ∨ unit.IsSettled annotator.anchorClass assertions := by
  induction nodes generalizing before with
  | nil => cases member
  | cons node rest inductionHypothesis =>
      simp only [unitsFrom, List.flatMap_cons, unitsFrom_append, flatMap_kept, map_node_unitsFrom,
        List.mem_append] at member
      rcases member with here | later
      · obtain ⟨front, standIn, back, parts, rfl⟩ := mem_unitsFrom_kept_iff.1 here
        by_cases isText : isTextNode standIn = true
        · exact .inl isText
        · rw [Bool.not_eq_true] at isText
          exact .inr (isSettled_of_mem_standIns isToken coverage assertions parts isText).1
      · exact inductionHypothesis later

/-- In what comes to stand for a child of the body every unit is exposed or settled. -/
theorem exposed_or_settled_of_replaceChild
    {before front back : List Node}
    {child member : Node}
    (parts :
      annotator.replaceChild (annotator.standIns coverage (candidates assertions)) before child =
        front ++ member :: back)
    {unit : ProseUnit}
    (isUnit : unit ∈ annotator.childUnits ProseUnit.kept (before ++ front) member) :
    unit ∈ annotator.exposedOfChild (before ++ front) member ∨
      unit.IsSettled annotator.anchorClass assertions := by
  rw [exposedOfChild, List.mem_filter, and_iff_right isUnit]
  unfold replaceChild at parts
  cases isSection : annotator.section? child with
  | some element =>
      simp only [isSection] at parts
      obtain ⟨rfl, rfl⟩ := eq_of_singleton_eq_append_cons parts
      have stillSection := section?_replaceSection isSection
        (annotator.standIns coverage (candidates assertions))
      simp only [childUnits, stillSection] at isUnit
      rcases text_or_settled_of_mem_unitsFrom isToken coverage assertions isUnit with
        isText | settled
      · left
        rw [isText, Bool.true_or]
      · exact .inr settled
  | none =>
      simp only [isSection] at parts
      cases inner : annotator.section? member with
      | some element =>
          by_cases isText : isTextNode member = true
          · cases member with
            | text content => cases inner
            | element tag children => cases isText
            | comment content => cases isText
          · rw [Bool.not_eq_true] at isText
            have isAnchor := (isSettled_of_mem_standIns isToken coverage assertions parts isText).2
            rw [inner, isSection] at isAnchor
            left
            simpa using Or.inr isAnchor
      | none =>
          simp only [childUnits, inner, List.mem_singleton] at isUnit
          subst isUnit
          by_cases isText : isTextNode member = true
          · left
            simp [ProseUnit.ofNode, isText]
          · rw [Bool.not_eq_true] at isText
            exact .inr (isSettled_of_mem_standIns isToken coverage assertions parts isText).1

theorem exposed_or_settled_of_replaceFrom
    {before nodes front back : List Node}
    {member : Node}
    (parts :
      annotator.replaceFrom (annotator.standIns coverage (candidates assertions)) before nodes =
        front ++ member :: back)
    {unit : ProseUnit}
    (isUnit : unit ∈ annotator.childUnits ProseUnit.kept (before ++ front) member) :
    unit ∈ annotator.exposedOfChild (before ++ front) member ∨
      unit.IsSettled annotator.anchorClass assertions := by
  induction nodes generalizing before front with
  | nil => simp [replaceFrom] at parts
  | cons node rest inductionHypothesis =>
      rw [replaceFrom] at parts
      obtain ⟨later, here, _⟩ | ⟨earlier, rfl, further⟩ := append_eq_append_cons parts
      · exact exposed_or_settled_of_replaceChild isToken coverage assertions here isUnit
      · rw [← List.append_assoc] at isUnit ⊢
        exact inductionHypothesis further isUnit

/-! ## When a walk changes nothing -/

/-- Where no anchor comes in, every visited unit is settled. -/
theorem isSettled_of_annotate_eq_self
    {document : Document}
    (same : (annotator.annotate document assertions coverage).1 = document)
    {unit : ProseUnit}
    (isVisited : unit ∈ annotator.visits coverage document assertions) :
    unit.IsSettled annotator.anchorClass assertions := by
  let isAnchor (tag : Tag) : Bool := tag.hasClass annotator.anchorClass
  have grown := countTags_annotate (fun tag (asked : isAnchor tag = true) => asked)
    document assertions coverage
  rw [same, Nat.left_eq_add, List.countP_eq_zero] at grown
  rw [← ProseUnit.plan_eq_nil_iff, List.eq_nil_iff_forall_not_mem]
  intro planned member
  exact grown planned (List.mem_flatMap.2 ⟨unit, isVisited, member⟩)
    (annotator.hasClass_anchorTag isToken _ _)

/-- A walk leaves a document as it is exactly if all units of the document are settled. -/
theorem annotate_eq_self_iff (document : Document) :
    (annotator.annotate document assertions coverage).1 = document ↔
      ∀ unit ∈ annotator.units ProseUnit.kept document,
        unit.IsSettled annotator.anchorClass assertions := by
  let standIns := annotator.standIns coverage (candidates assertions)
  constructor
  · intro same
    have keeps (unit : ProseUnit) (isVisited : unit ∈ annotator.units standIns document) :
        unit.IsSettled annotator.anchorClass assertions :=
      isSettled_of_annotate_eq_self isToken coverage assertions same isVisited
    have sameUnits : annotator.units standIns document = annotator.units ProseUnit.kept document :=
      units_congr fun unit isVisited => standIns_eq_kept coverage (keeps unit isVisited)
    rwa [sameUnits] at keeps
  · intro settled
    rw [annotate_fst]
    have unchanged (body : Element) (isBody : document.root.child? "body" = some body) :
        annotator.replaceBody standIns body = body := by
      rw [units, Document.body?, isBody] at settled
      have sameNodes := replaceFrom_congr fun unit isUnit =>
        (standIns_eq_kept coverage (settled unit isUnit)).symm
      rw [replaceBody, ← sameNodes, replaceFrom_kept]
    rw [Element.modifyChild_eq_self unchanged]

end Settled

/-- Annotating twice changes nothing more exactly if the exposed units of the document that was
annotated once are settled. -/
theorem annotate_twice_iff
    (annotator : Annotator)
    (isToken : Text.IsToken annotator.anchorClass)
    (document : Document)
    (assertions : List SpecAssertion)
    (coverage : Coverage) :
    let once := (annotator.annotate document assertions coverage).1
    (annotator.annotate once assertions coverage).1 = once ↔
      ∀ unit, annotator.IsExposed once unit →
        unit.IsSettled annotator.anchorClass assertions := by
  intro once
  rw [annotate_eq_self_iff isToken]
  constructor
  · rintro settled unit ⟨body, isBody, front, node, back, children_eq, isExposed⟩
    apply settled
    rw [units, isBody, mem_bodyUnitsFrom_kept_iff]
    exact ⟨front, node, back, children_eq, (List.mem_filter.1 isExposed).1⟩
  · intro settled unit isUnit
    rw [units] at isUnit
    cases isBody : once.body? with
    | none => simp [isBody] at isUnit
    | some annotated =>
        rw [isBody] at isUnit
        obtain ⟨front, node, back, parts, isChildUnit⟩ := mem_bodyUnitsFrom_kept_iff.1 isUnit
        have body_eq := (body?_annotate annotator coverage document assertions).symm.trans isBody
        obtain ⟨body, _, rfl⟩ := Option.map_eq_some_iff.1 body_eq
        rcases exposed_or_settled_of_replaceFrom isToken coverage assertions parts isChildUnit with
          isExposed | isSettled
        · exact settled unit ⟨_, isBody, front, node, back, parts, isExposed⟩
        · exact isSettled

/-- An anchor in a paragraph is recognized. -/
theorem annotate_twice_iff_paragraph :
    let annotator : Annotator := {}
    let paragraph : Node := .element { name := "p" } [.text "It must draw."]
    let document : Document := ⟨{ name := "html" }, [.element { name := "body" } [paragraph]]⟩
    let assertions : List SpecAssertion := [{ id := "draw", text := "must<^>" }]
    let once := (annotator.annotate document assertions {}).1
    Text.IsToken annotator.anchorClass ∧ (annotator.annotate once assertions {}).1 = once := by
  intro annotator paragraph document assertions once
  have isToken : Text.IsToken annotator.anchorClass := by decide
  refine ⟨isToken, (annotate_twice_iff annotator isToken document assertions {}).2 ?_⟩
  rintro unit ⟨body, isBody, front, node, back, children_eq, isExposed⟩
  have onlyParagraphs :
      (once.body?.all fun body => body.children.all fun child =>
        !isTextNode child && (annotator.section? child).isNone) = true := by
    decide +kernel
  have member : node ∈ body.children := by simp [children_eq]
  rw [isBody, Option.all_some, List.all_eq_true] at onlyParagraphs
  have isParagraph := onlyParagraphs node member
  rw [Bool.and_eq_true, Bool.not_eq_true', Option.isNone_iff_eq_none] at isParagraph
  obtain ⟨notText, noSection⟩ := isParagraph
  simp [exposedOfChild, childUnits, noSection, ProseUnit.ofNode, notText] at isExposed

/-- An anchor beside the halves of a text node is not recognized: it comes in once more. -/
theorem annotate_twice_bareText :
    ¬ ∀ (annotator : Annotator) (document : Document) (assertions : List SpecAssertion)
        (coverage : Coverage), Text.IsToken annotator.anchorClass →
      let once := (annotator.annotate document assertions coverage).1
      (annotator.annotate once assertions coverage).1 = once := by
  intro claimed
  let document : Document :=
    ⟨{ name := "html" }, [.element { name := "body" } [.text "It must draw."]]⟩
  have same :=
    claimed {} document [{ id := "draw", text := "must<^>" }] {} (by decide)
  have sameCount := congrArg
    (fun annotated : Document =>
      Node.countTags (fun tag => tag.hasClass "testrefs") annotated.root.children) same
  revert sameCount
  decide +kernel

end Annotator

end CrossReference
end Conformance
