import Conformance.Proofs.CrossReference.Repetition

/-!
# Anchors over many passes

Documents grow when they are annotated again and again, with whatever assertions: an element that is
a unit keeps its text and all its anchors, each at its offset, and never has two anchors at one
offset.  Only text nodes among the children of the body or of a section fall into several nodes, so
that later siblings move.
-/

namespace Conformance
namespace CrossReference

open Markup

/-! ## Growing documents -/

/-- How siblings grow: a text node becomes texts and anchors that hold its text, and every other
node stays one node, which corresponds to it. -/
inductive SiblingsGrow
    (anchorClass : String)
    (corresponds : Node → Node → Prop) :
    List Node → List Node → Prop where
  | nil : SiblingsGrow anchorClass corresponds [] []
  | node {first second : Node} {rest later : List Node} :
      corresponds first second →
      SiblingsGrow anchorClass corresponds rest later →
      SiblingsGrow anchorClass corresponds (first :: rest) (second :: later)
  | text {content : String} {run rest later : List Node} :
      (∀ member ∈ run, isTextNode member = true ∨ member.hasClass anchorClass = true) →
      (TextIndex.ofNodes anchorClass run).text = content →
      SiblingsGrow anchorClass corresponds rest later →
      SiblingsGrow anchorClass corresponds (.text content :: rest) (run ++ later)

/-- How a unit that is no text node grows: an element keeps its tag, its text and the anchors that
it has, each at its offset. -/
inductive UnitGrows (anchorClass : String) : Node → Node → Prop where
  | element {tag : Tag} {children changed : List Node} :
      (TextIndex.ofNodes anchorClass [.element tag changed]).text =
        (TextIndex.ofNodes anchorClass [.element tag children]).text →
      (TextIndex.ofNodes anchorClass [.element tag children]).anchors ⊆
        (TextIndex.ofNodes anchorClass [.element tag changed]).anchors →
      UnitGrows anchorClass (.element tag children) (.element tag changed)
  | comment (content : String) : UnitGrows anchorClass (.comment content) (.comment content)

namespace Annotator

/-- How a child of the body that is no text node grows: the children of a section are units of their
own, any other child is a unit. -/
inductive ChildGrows (annotator : Annotator) : Node → Node → Prop where
  | ofSection {tag : Tag} {children changed : List Node} :
      annotator.section? (.element tag children) = some ⟨tag, children⟩ →
      SiblingsGrow annotator.anchorClass (UnitGrows annotator.anchorClass) children changed →
      ChildGrows annotator (.element tag children) (.element tag changed)
  | ofUnit {first second : Node} :
      annotator.section? first = none →
      UnitGrows annotator.anchorClass first second →
      ChildGrows annotator first second

/-- How a document grows: its body does, if there is one. -/
def Grows (annotator : Annotator) (first second : Document) : Prop :=
  Option.Rel
    (fun body changed =>
      SiblingsGrow annotator.anchorClass annotator.ChildGrows body.children changed.children)
    first.body? second.body?

/-- What one pass is made with. -/
structure Pass where
  /-- The assertions that are looked for. -/
  assertions : List SpecAssertion
  /-- The tests that claim them. -/
  coverage : Coverage

/-- The document after some passes, one after the other. -/
def annotateAll (annotator : Annotator) (document : Document) (passes : List Pass) : Document :=
  passes.foldl
    (fun annotated pass => (annotator.annotate annotated pass.assertions pass.coverage).1)
    document

theorem annotateAll_append
    (annotator : Annotator)
    (document : Document)
    (earlier later : List Pass) :
    annotator.annotateAll document (earlier ++ later) =
      annotator.annotateAll (annotator.annotateAll document earlier) later :=
  List.foldl_append

end Annotator

/-! ## Growth upon growth -/

/-- What a correspondence of nodes needs for siblings to grow again and again. -/
structure IsGrowth (anchorClass : String) (corresponds : Node → Node → Prop) : Prop where
  /-- Every node that is no text corresponds to itself. -/
  refl : ∀ {node : Node}, isTextNode node = false → corresponds node node
  /-- What corresponds to a corresponding node corresponds. -/
  trans : ∀ {first second third : Node},
    corresponds first second → corresponds second third → corresponds first third
  /-- Text nodes correspond to nothing. -/
  notText : ∀ {first second : Node}, corresponds first second →
    isTextNode first = false ∧ isTextNode second = false
  /-- Anchors correspond to anchors. -/
  hasClass : ∀ {first second : Node}, corresponds first second →
    second.hasClass anchorClass = first.hasClass anchorClass
  /-- Corresponding nodes have the same text. -/
  prose : ∀ {first second : Node}, corresponds first second →
    proseOf (marks anchorClass [second]) = proseOf (marks anchorClass [first])

namespace SiblingsGrow

variable
  {anchorClass : String}
  {corresponds : Node → Node → Prop}
  (isGrowth : IsGrowth anchorClass corresponds)

include isGrowth

/-- Siblings grow by nothing at all. -/
theorem refl (nodes : List Node) : SiblingsGrow anchorClass corresponds nodes nodes := by
  induction nodes with
  | nil => exact .nil
  | cons node rest inductionHypothesis =>
      by_cases isText : isTextNode node = true
      · cases node with
        | text content =>
            have whole : SiblingsGrow anchorClass corresponds
                (.text content :: rest) ([.text content] ++ rest) := by
              refine .text ?_ ?_ inductionHypothesis
              · intro member isMember
                rw [List.mem_singleton.1 isMember]
                exact .inl rfl
              · apply String.toList_injective
                simp [Piece.content]
            exact whole
        | element tag children => cases isText
        | comment content => cases isText
      · exact .node (isGrowth.refl (by simpa using isText)) inductionHypothesis

/-- Growing siblings keep their text. -/
theorem proseOf_marks_eq
    {first second : List Node}
    (grow : SiblingsGrow anchorClass corresponds first second) :
    proseOf (marks anchorClass second) = proseOf (marks anchorClass first) := by
  induction grow with
  | nil => rfl
  | node here _ inductionHypothesis =>
      rename_i first second rest later _
      rw [← List.singleton_append, marks_append, proseOf_append, isGrowth.prose here,
        inductionHypothesis, ← proseOf_append, ← marks_append, List.singleton_append]
  | text _ sameText _ inductionHypothesis =>
      have text_eq := congrArg String.toList sameText
      rw [TextIndex.toList_text_ofNodes] at text_eq
      rw [marks_append, proseOf_append, inductionHypothesis, text_eq, marks_text_cons, proseOf_cons]
      rfl

/-- Texts and anchors become texts and anchors. -/
theorem text_or_anchor
    {first second : List Node}
    (grow : SiblingsGrow anchorClass corresponds first second)
    (textOrAnchor : ∀ member ∈ first,
      isTextNode member = true ∨ member.hasClass anchorClass = true) :
    ∀ member ∈ second, isTextNode member = true ∨ member.hasClass anchorClass = true := by
  induction grow with
  | nil => exact textOrAnchor
  | node here _ inductionHypothesis =>
      rename_i first second rest later _
      obtain ⟨firstIs, restAre⟩ := List.forall_mem_cons.1 textOrAnchor
      refine List.forall_mem_cons.2 ⟨.inr ?_, inductionHypothesis restAre⟩
      rw [isGrowth.hasClass here]
      simpa [(isGrowth.notText here).1] using firstIs
  | text runAre _ _ inductionHypothesis =>
      obtain ⟨_, restAre⟩ := List.forall_mem_cons.1 textOrAnchor
      exact List.forall_mem_append.2 ⟨runAre, inductionHypothesis restAre⟩

omit isGrowth in
/-- Siblings one after the other grow one after the other. -/
theorem exists_append
    {front back whole : List Node}
    (grow : SiblingsGrow anchorClass corresponds (front ++ back) whole) :
    ∃ first second, whole = first ++ second ∧
      SiblingsGrow anchorClass corresponds front first ∧
      SiblingsGrow anchorClass corresponds back second := by
  induction front generalizing whole with
  | nil => exact ⟨[], whole, rfl, .nil, grow⟩
  | cons node front inductionHypothesis =>
      cases grow with
      | node here rest =>
          obtain ⟨first, second, rfl, growFront, growBack⟩ := inductionHypothesis rest
          exact ⟨_ :: first, second, rfl, .node here growFront, growBack⟩
      | text runAre sameText rest =>
          obtain ⟨first, second, rfl, growFront, growBack⟩ := inductionHypothesis rest
          exact ⟨_, second, (List.append_assoc _ _ _).symm, .text runAre sameText growFront,
            growBack⟩

/-- Siblings that grow and grow again have grown. -/
theorem trans
    {first second third : List Node}
    (grow : SiblingsGrow anchorClass corresponds first second)
    (growAgain : SiblingsGrow anchorClass corresponds second third) :
    SiblingsGrow anchorClass corresponds first third := by
  induction grow generalizing third with
  | nil => exact growAgain
  | node here _ inductionHypothesis =>
      cases growAgain with
      | node further rest => exact .node (isGrowth.trans here further) (inductionHypothesis rest)
      | text _ _ _ =>
          have notText := (isGrowth.notText here).2
          cases notText
  | text runAre sameText _ inductionHypothesis =>
      obtain ⟨run, later, rfl, growRun, growRest⟩ := exists_append growAgain
      refine .text (growRun.text_or_anchor isGrowth runAre) ?_ (inductionHypothesis growRest)
      rw [← sameText]
      exact TextIndex.text_ofNodes_eq (growRun.proseOf_marks_eq isGrowth)

end SiblingsGrow

/-- Units grow again and again. -/
theorem isGrowth_unitGrows (anchorClass : String) :
    IsGrowth anchorClass (UnitGrows anchorClass) where
  refl := by
    intro node notText
    cases node with
    | text content => cases notText
    | element tag children => exact .element rfl (List.Subset.refl _)
    | comment content => exact .comment content
  trans := by
    intro first second third grows growsAgain
    cases grows with
    | comment content => exact growsAgain
    | element sameText kept =>
        cases growsAgain with
        | element sameTextAgain keptAgain =>
            exact .element (sameTextAgain.trans sameText) (List.Subset.trans kept keptAgain)
  notText := by
    intro first second grows
    cases grows with
    | element _ _ => exact ⟨rfl, rfl⟩
    | comment content => exact ⟨rfl, rfl⟩
  hasClass := by
    intro first second grows
    cases grows with
    | element _ _ => rfl
    | comment content => rfl
  prose := by
    intro first second grows
    cases grows with
    | comment content => rfl
    | element sameText _ =>
        rw [← TextIndex.toList_text_ofNodes, ← TextIndex.toList_text_ofNodes, sameText]

namespace Annotator

variable {annotator : Annotator}

/-- An element is a section or not, whatever its children are. -/
theorem section?_element_of_eq
    {tag : Tag}
    {children : List Node}
    (isSection : annotator.section? (.element tag children) = some ⟨tag, children⟩)
    (changed : List Node) :
    annotator.section? (.element tag changed) = some ⟨tag, changed⟩ := by
  obtain ⟨_, isMarked⟩ := Option.filter_eq_some_iff.1 isSection
  exact Option.filter_eq_some_iff.2 ⟨rfl, isMarked⟩

theorem section?_eq_none_of_unitGrows
    {first second : Node}
    (notSection : annotator.section? first = none)
    (grows : UnitGrows annotator.anchorClass first second) :
    annotator.section? second = none := by
  cases grows with
  | comment content => rfl
  | element _ _ =>
      rw [← Option.isNone_iff_eq_none, ← Option.not_isSome, isSome_section?_element] at notSection ⊢
      exact notSection

/-- Children of the body grow again and again. -/
theorem isGrowth_childGrows (annotator : Annotator) :
    IsGrowth annotator.anchorClass annotator.ChildGrows where
  refl := by
    intro node notText
    have units := isGrowth_unitGrows annotator.anchorClass
    cases isSection : annotator.section? node with
    | none => exact .ofUnit isSection (units.refl notText)
    | some element =>
        have isElement := toNode_of_section?_eq_some isSection
        subst isElement
        exact .ofSection isSection (SiblingsGrow.refl units element.children)
  trans := by
    intro first second third grows growsAgain
    have units := isGrowth_unitGrows annotator.anchorClass
    cases grows with
    | ofSection isSection inside =>
        cases growsAgain with
        | ofSection _ insideAgain =>
            exact .ofSection isSection (inside.trans units insideAgain)
        | ofUnit notSection _ =>
            rw [section?_element_of_eq isSection] at notSection
            cases notSection
    | ofUnit notSection here =>
        have stillNot := section?_eq_none_of_unitGrows notSection here
        cases growsAgain with
        | ofSection isSection _ =>
            rw [stillNot] at isSection
            cases isSection
        | ofUnit _ further => exact .ofUnit notSection (units.trans here further)
  notText := by
    intro first second grows
    cases grows with
    | ofSection _ _ => exact ⟨rfl, rfl⟩
    | ofUnit _ here => exact (isGrowth_unitGrows annotator.anchorClass).notText here
  hasClass := by
    intro first second grows
    cases grows with
    | ofSection _ _ => rfl
    | ofUnit _ here => exact (isGrowth_unitGrows annotator.anchorClass).hasClass here
  prose := by
    intro first second grows
    have units := isGrowth_unitGrows annotator.anchorClass
    cases grows with
    | ofSection _ inside => exact proseOf_marks_element_congr (inside.proseOf_marks_eq units) _
    | ofUnit _ here => exact units.prose here

theorem Grows.refl (annotator : Annotator) (document : Document) :
    annotator.Grows document document := by
  unfold Grows
  cases document.body? with
  | none => exact .none
  | some body => exact .some (SiblingsGrow.refl (isGrowth_childGrows annotator) body.children)

theorem Grows.trans
    {first second third : Document}
    (grows : annotator.Grows first second)
    (growsAgain : annotator.Grows second third) :
    annotator.Grows first third := by
  unfold Grows at grows growsAgain ⊢
  generalize first.body? = firstBody at grows ⊢
  generalize second.body? = secondBody at grows growsAgain
  generalize third.body? = thirdBody at growsAgain ⊢
  cases grows with
  | none =>
      cases growsAgain with
      | none => exact .none
  | some here =>
      cases growsAgain with
      | some further => exact .some (here.trans (isGrowth_childGrows annotator) further)

/-! ## One pass -/

section Pass

variable
  (isToken : Text.IsToken annotator.anchorClass)
  (coverage : Coverage)
  (assertions : List SpecAssertion)

include isToken

/-- A text node is replaced by texts and anchors that hold its text. -/
theorem standIns_of_isTextNode
    {content : String}
    (before : List Node) :
    let standIns := annotator.standIns coverage (candidates assertions)
      (ProseUnit.ofNode annotator.anchorClass before (.text content))
    (∀ member ∈ standIns,
      isTextNode member = true ∨ member.hasClass annotator.anchorClass = true) ∧
      (TextIndex.ofNodes annotator.anchorClass standIns).text = content := by
  intro standIns
  constructor
  · intro member isMember
    rcases text_or_anchor_of_mem_standIns isToken coverage assertions rfl isMember with
      isText | ⟨id, keyword, rfl⟩
    · exact .inl isText
    · exact .inr (annotator.hasClass_anchor isToken coverage id keyword)
  · obtain ⟨_, _, inserted⟩ := annotator.insertedAll_standIns coverage (candidates assertions)
      before (.text content)
    apply String.toList_injective
    rw [TextIndex.toList_text_ofNodes, inserted.proseOf_marks_eq isToken]
    simp [Piece.content]

/-- Any other node is replaced by one that it grows to. -/
theorem exists_standIns_unitGrows
    {node : Node}
    (notText : isTextNode node = false)
    (before : List Node) :
    ∃ changed,
      annotator.standIns coverage (candidates assertions)
          (ProseUnit.ofNode annotator.anchorClass before node) = [changed] ∧
        UnitGrows annotator.anchorClass node changed := by
  cases node with
  | text content => cases notText
  | comment content =>
      have noText : (marks annotator.anchorClass [.comment content]).any Piece.isText = false := by
        simp
      have settled := ProseUnit.isSettled_of_noText assertions noText before
      exact ⟨.comment content, standIns_eq_kept coverage settled, .comment content⟩
  | element tag children =>
      obtain ⟨_, _, inserted⟩ := annotator.insertedAll_standIns coverage (candidates assertions)
        before (.element tag children)
      have sites := annotator.anchors_standIns_perm coverage (candidates assertions) isToken
        before (.element tag children)
      have sameProse := inserted.proseOf_marks_eq isToken
      obtain ⟨changed, standIns_eq⟩ := inserted.exists_eq_element
      simp only [standIns_eq] at sites sameProse
      refine ⟨.element tag changed, standIns_eq, .element ?_ ?_⟩
      · exact TextIndex.text_ofNodes_eq sameProse
      · rw [TextIndex.anchors_ofNodes, TextIndex.anchors_ofNodes]
        intro site present
        apply sites.mem_iff.2
        exact List.mem_append_right _ present

/-- Siblings grow when the first one is replaced by its stand-ins and the others grow. -/
theorem siblingsGrow_standIns_append
    {corresponds : Node → Node → Prop}
    {node : Node}
    (ofUnit : ∀ changed, UnitGrows annotator.anchorClass node changed → corresponds node changed)
    (before : List Node)
    {rest later : List Node}
    (grow : SiblingsGrow annotator.anchorClass corresponds rest later) :
    SiblingsGrow annotator.anchorClass corresponds (node :: rest)
      (annotator.standIns coverage (candidates assertions)
        (ProseUnit.ofNode annotator.anchorClass before node) ++ later) := by
  by_cases isText : isTextNode node = true
  · cases node with
    | element tag children => cases isText
    | comment content => cases isText
    | text content =>
        obtain ⟨runIs, sameText⟩ := standIns_of_isTextNode isToken coverage assertions before
        exact .text runIs sameText grow
  · rw [Bool.not_eq_true] at isText
    obtain ⟨changed, standIns_eq, grows⟩ :=
      exists_standIns_unitGrows isToken coverage assertions isText before
    rw [standIns_eq]
    exact .node (ofUnit changed grows) grow

theorem siblingsGrow_flatMap_unitsFrom (before nodes : List Node) :
    let standIns := annotator.standIns coverage (candidates assertions)
    SiblingsGrow annotator.anchorClass (UnitGrows annotator.anchorClass) nodes
      ((unitsFrom annotator.anchorClass standIns before nodes).flatMap standIns) := by
  intro standIns
  induction nodes generalizing before with
  | nil => exact .nil
  | cons node rest inductionHypothesis =>
      rw [unitsFrom, List.flatMap_cons]
      apply siblingsGrow_standIns_append isToken coverage assertions
      · intro changed grows
        exact grows
      · exact inductionHypothesis _

theorem siblingsGrow_replaceFrom (before nodes : List Node) :
    SiblingsGrow annotator.anchorClass annotator.ChildGrows nodes
      (annotator.replaceFrom (annotator.standIns coverage (candidates assertions)) before
        nodes) := by
  induction nodes generalizing before with
  | nil => exact .nil
  | cons node rest inductionHypothesis =>
      rw [replaceFrom]
      cases isSection : annotator.section? node with
      | some element =>
          have isElement := toNode_of_section?_eq_some isSection
          subst isElement
          simp only [replaceChild, isSection]
          refine .node (.ofSection isSection ?_) (inductionHypothesis _)
          exact siblingsGrow_flatMap_unitsFrom isToken coverage assertions [] element.children
      | none =>
          simp only [replaceChild, isSection]
          apply siblingsGrow_standIns_append isToken coverage assertions
          · intro changed grows
            exact .ofUnit isSection grows
          · exact inductionHypothesis _

/-- A document grows when it is annotated. -/
theorem grows_annotate (document : Document) :
    annotator.Grows document (annotator.annotate document assertions coverage).1 := by
  rw [Grows, body?_annotate]
  cases document.body? with
  | none => exact .none
  | some body => exact .some (siblingsGrow_replaceFrom isToken coverage assertions [] body.children)

end Pass

end Annotator

/-! ## Anchors apart -/

mutual

theorem anchorsFrom_marks_node_eq_nil
    {anchorClass : String} :
    (node : Node) →
    Node.countTagsIn (fun tag => tag.hasClass anchorClass) node = 0 →
    ∀ offset, anchorsFrom offset (marks anchorClass [node]) = []
  | .text content, _, offset => by simp [anchorsFrom]
  | .comment content, _, offset => by simp [anchorsFrom]
  | .element tag children, absent, offset => by
      rw [Node.countTagsIn, Nat.add_eq_zero_iff] at absent
      have isOther : tag.hasClass anchorClass = false := by simpa using absent.1
      rw [marks_element_cons isOther, marks_nil, List.append_nil]
      exact anchorsFrom_marks_eq_nil children absent.2 offset

/-- Where no element carries the class of anchors, there are none. -/
theorem anchorsFrom_marks_eq_nil
    {anchorClass : String} :
    (nodes : List Node) →
    Node.countTags (fun tag => tag.hasClass anchorClass) nodes = 0 →
    ∀ offset, anchorsFrom offset (marks anchorClass nodes) = []
  | [], _, offset => rfl
  | node :: rest, absent, offset => by
      rw [Node.countTags, Nat.add_eq_zero_iff] at absent
      rw [← List.singleton_append, marks_append, anchorsFrom_append,
        anchorsFrom_marks_node_eq_nil node absent.1, anchorsFrom_marks_eq_nil rest absent.2]
      rfl

end

/-- Whether no two anchors of a node stand at one offset of its text. -/
def AnchorsApart (anchorClass : String) (node : Node) : Prop :=
  ((TextIndex.ofNodes anchorClass [node]).anchors.map AnchorSite.offset).Nodup

theorem anchorsApart_of_countTagsIn
    {anchorClass : String}
    {node : Node}
    (noAnchors : Node.countTagsIn (fun tag => tag.hasClass anchorClass) node = 0) :
    AnchorsApart anchorClass node := by
  rw [AnchorsApart, TextIndex.anchors_ofNodes, anchorsFrom_marks_node_eq_nil node noAnchors]
  exact List.nodup_nil

/-- An anchor by itself is apart. -/
theorem anchorsApart_of_hasClass
    {anchorClass : String}
    {node : Node}
    (isAnchor : node.hasClass anchorClass = true) :
    AnchorsApart anchorClass node := by
  cases node with
  | text content => cases isAnchor
  | comment content => cases isAnchor
  | element tag children =>
      rw [AnchorsApart, TextIndex.anchors_ofNodes, marks_anchor_cons isAnchor]
      simp [anchorsFrom]

namespace Annotator

variable {annotator : Annotator}

/-- No two anchors come to one offset: what is planned keeps away from the anchors of the unit. -/
theorem anchorsApart_of_standIns_eq
    (isToken : Text.IsToken annotator.anchorClass)
    {coverage : Coverage}
    {assertions : List SpecAssertion}
    {before : List Node}
    {node changed : Node}
    (standIns_eq :
      annotator.standIns coverage (candidates assertions)
        (ProseUnit.ofNode annotator.anchorClass before node) = [changed])
    (apart : AnchorsApart annotator.anchorClass node) :
    AnchorsApart annotator.anchorClass changed := by
  have sites := annotator.anchors_standIns_perm coverage (candidates assertions) isToken before node
  simp only [standIns_eq] at sites
  rw [AnchorsApart, TextIndex.anchors_ofNodes] at apart ⊢
  rw [(sites.map AnchorSite.offset).nodup_iff, List.map_append, List.nodup_append]
  refine ⟨?_, apart, ?_⟩
  · have distinct :
        (((ProseUnit.ofNode annotator.anchorClass before node).plan annotator.anchorClass
          (candidates assertions)).map Planned.offset).Nodup :=
      ProseUnit.nodup_map_offset_plan _
    rw [List.map_map]
    exact distinct
  · rintro _ isPlanned _ isStanding rfl
    obtain ⟨_, plannedSite, rfl⟩ := List.mem_map.1 isPlanned
    obtain ⟨planned, inPlan, rfl⟩ := List.mem_map.1 plannedSite
    obtain ⟨absent, _⟩ := ProseUnit.exists_candidate_of_mem_plan inPlan
    have present : ((ProseUnit.ofNode annotator.anchorClass before node).index.anchorAt?
        planned.offset).isSome = true := by
      rw [TextIndex.isSome_anchorAt?, ProseUnit.ofNode, TextIndex.anchors_ofNodes]
      exact List.mem_map.1 isStanding
    rw [absent] at present
    cases present

theorem anchorsApart_of_mem_standIns
    (isToken : Text.IsToken annotator.anchorClass)
    (coverage : Coverage)
    (assertions : List SpecAssertion)
    {before : List Node}
    {node member : Node}
    (apart : AnchorsApart annotator.anchorClass node)
    (isMember :
      member ∈ annotator.standIns coverage (candidates assertions)
        (ProseUnit.ofNode annotator.anchorClass before node)) :
    AnchorsApart annotator.anchorClass member := by
  by_cases isText : isTextNode node = true
  · rcases text_or_anchor_of_mem_standIns isToken coverage assertions isText isMember with
      isText | ⟨id, keyword, rfl⟩
    · cases member with
      | text content => exact anchorsApart_of_countTagsIn rfl
      | element tag children => cases isText
      | comment content => cases isText
    · exact anchorsApart_of_hasClass (annotator.hasClass_anchor isToken coverage id keyword)
  · rw [Bool.not_eq_true] at isText
    obtain ⟨changed, standIns_eq, _⟩ :=
      exists_standIns_unitGrows isToken coverage assertions isText before
    rw [standIns_eq, List.mem_singleton] at isMember
    subst isMember
    exact anchorsApart_of_standIns_eq isToken standIns_eq apart

/-- What stands in an anchor that comes in holds no anchor. -/
theorem anchorsApart_of_anchor_eq
    (isToken : Text.IsToken annotator.anchorClass)
    (coverage : Coverage)
    {id : String}
    {keyword : Keyword}
    {element : Element}
    (isElement : annotator.anchor coverage id keyword = element.toNode) :
    ∀ node ∈ element.children, AnchorsApart annotator.anchorClass node := by
  have carries := annotator.hasClass_anchor isToken coverage id keyword
  have count := annotator.countTagsIn_anchor (fun _ asked => asked) coverage id keyword
  rw [isElement] at carries count
  have tagCarries : element.tag.hasClass annotator.anchorClass = true := carries
  rw [Element.toNode, Node.countTagsIn, if_pos tagCarries,
    if_pos (annotator.hasClass_anchorTag isToken id keyword)] at count
  intro node member
  apply anchorsApart_of_countTagsIn
  exact Node.countTagsIn_eq_zero_of_mem (by omega) member

theorem anchorsApart_of_mem_unitsFrom
    (isToken : Text.IsToken annotator.anchorClass)
    (coverage : Coverage)
    (assertions : List SpecAssertion)
    {before nodes : List Node}
    (apart : ∀ node ∈ nodes, AnchorsApart annotator.anchorClass node) :
    let standIns := annotator.standIns coverage (candidates assertions)
    ∀ member ∈ (unitsFrom annotator.anchorClass standIns before nodes).flatMap standIns,
      AnchorsApart annotator.anchorClass member := by
  intro standIns
  induction nodes generalizing before with
  | nil =>
      intro member isMember
      cases isMember
  | cons node rest inductionHypothesis =>
      obtain ⟨here, later⟩ := List.forall_mem_cons.1 apart
      rw [unitsFrom, List.flatMap_cons, List.forall_mem_append]
      refine ⟨?_, inductionHypothesis later⟩
      intro member isMember
      exact anchorsApart_of_mem_standIns isToken coverage assertions here isMember

/-- In what comes to stand for a child of the body the units have their anchors apart, if those of
the child have. -/
theorem anchorsApart_of_mem_replaceChild
    (isToken : Text.IsToken annotator.anchorClass)
    (coverage : Coverage)
    (assertions : List SpecAssertion)
    {before : List Node}
    {child member : Node}
    (apart : ∀ node ∈ annotator.unitNodes child, AnchorsApart annotator.anchorClass node)
    (isMember :
      member ∈ annotator.replaceChild
        (annotator.standIns coverage (candidates assertions)) before child) :
    ∀ node ∈ annotator.unitNodes member, AnchorsApart annotator.anchorClass node := by
  unfold replaceChild at isMember
  cases isSection : annotator.section? child with
  | some element =>
      simp only [isSection, List.mem_singleton] at isMember
      subst isMember
      simp only [unitNodes, isSection] at apart
      simp only [unitNodes, section?_replaceSection isSection]
      exact anchorsApart_of_mem_unitsFrom isToken coverage assertions apart
  | none =>
      simp only [isSection] at isMember
      simp only [unitNodes, isSection, List.forall_mem_singleton] at apart
      have memberApart := anchorsApart_of_mem_standIns isToken coverage assertions apart isMember
      unfold unitNodes
      cases inner : annotator.section? member with
      | none => simpa using memberApart
      | some element =>
          -- Only an anchor that comes in can be a section here, and it holds no anchor.
          by_cases isText : isTextNode child = true
          · rcases text_or_anchor_of_mem_standIns isToken coverage assertions isText isMember with
              isText | ⟨id, keyword, rfl⟩
            · cases member with
              | text content => cases inner
              | element tag children => cases isText
              | comment content => cases isText
            · exact anchorsApart_of_anchor_eq isToken coverage (toNode_of_section?_eq_some inner)
          · rw [Bool.not_eq_true] at isText
            obtain ⟨changed, standIns_eq, sameSection⟩ :=
              exists_standIns_eq coverage assertions isText before
            rw [standIns_eq, List.mem_singleton] at isMember
            subst isMember
            rw [inner, isSection] at sameSection
            cases sameSection

theorem anchorsApart_of_mem_replaceFrom
    (isToken : Text.IsToken annotator.anchorClass)
    (coverage : Coverage)
    (assertions : List SpecAssertion)
    {before nodes : List Node}
    (apart : ∀ node ∈ nodes.flatMap annotator.unitNodes, AnchorsApart annotator.anchorClass node) :
    ∀ node ∈ (annotator.replaceFrom (annotator.standIns coverage (candidates assertions))
        before nodes).flatMap annotator.unitNodes,
      AnchorsApart annotator.anchorClass node := by
  induction nodes generalizing before with
  | nil =>
      intro node member
      cases member
  | cons child rest inductionHypothesis =>
      rw [List.flatMap_cons, List.forall_mem_append] at apart
      rw [replaceFrom, List.flatMap_append, List.forall_mem_append]
      refine ⟨?_, inductionHypothesis apart.2⟩
      intro node member
      obtain ⟨standIn, isStandIn, isUnit⟩ := List.mem_flatMap.1 member
      exact anchorsApart_of_mem_replaceChild isToken coverage assertions apart.1 isStandIn node
        isUnit

/-- Where no element is of a kind, none stands in a unit. -/
theorem countTagsIn_eq_zero_of_mem_unitNodes
    {asked : Tag → Bool}
    {document : Document}
    (absent : Node.countTags asked document.root.children = 0)
    {body : Element}
    (isBody : document.body? = some body) :
    ∀ node ∈ body.children.flatMap annotator.unitNodes, Node.countTagsIn asked node = 0 := by
  obtain ⟨⟨before, found, after⟩, isSplit, rfl⟩ := Option.map_eq_some_iff.1 isBody
  rw [(Element.eq_of_splitAt?_eq_some isSplit).1] at absent
  have inBody := Node.countTagsIn_eq_zero_of_mem absent List.mem_append_cons_self
  rw [Element.toNode, Node.countTagsIn, Nat.add_eq_zero_iff] at inBody
  intro node member
  obtain ⟨child, isChild, isUnit⟩ := List.mem_flatMap.1 member
  have inChild := Node.countTagsIn_eq_zero_of_mem inBody.2 isChild
  unfold unitNodes at isUnit
  cases isSection : annotator.section? child with
  | none =>
      simp only [isSection, List.mem_singleton] at isUnit
      rwa [isUnit]
  | some element =>
      simp only [isSection] at isUnit
      rw [toNode_of_section?_eq_some isSection, Element.toNode, Node.countTagsIn,
        Nat.add_eq_zero_iff] at inChild
      exact Node.countTagsIn_eq_zero_of_mem inChild.2 isUnit

/-- Where no element carries the class of anchors, every unit has its anchors apart. -/
theorem anchorsApart_of_countTags
    {document : Document}
    (noAnchors :
      Node.countTags (fun tag => tag.hasClass annotator.anchorClass) document.root.children = 0)
    {body : Element}
    (isBody : document.body? = some body) :
    ∀ node ∈ body.children.flatMap annotator.unitNodes,
      AnchorsApart annotator.anchorClass node := by
  intro node member
  exact anchorsApart_of_countTagsIn (countTagsIn_eq_zero_of_mem_unitNodes noAnchors isBody node member)

/-- After any passes every unit has its anchors apart. -/
theorem anchorsApart_annotateAll
    (isToken : Text.IsToken annotator.anchorClass)
    {document : Document}
    (noAnchors :
      Node.countTags (fun tag => tag.hasClass annotator.anchorClass) document.root.children = 0)
    (passes : List Pass)
    {body : Element}
    (isBody : (annotator.annotateAll document passes).body? = some body) :
    ∀ node ∈ body.children.flatMap annotator.unitNodes,
      AnchorsApart annotator.anchorClass node := by
  induction passes using List.reverseRecOn generalizing body with
  | nil => exact anchorsApart_of_countTags noAnchors isBody
  | append_singleton earlier pass inductionHypothesis =>
      rw [annotateAll_append] at isBody
      have body_eq := (body?_annotate annotator pass.coverage
        (annotator.annotateAll document earlier) pass.assertions).symm.trans isBody
      obtain ⟨earlierBody, isEarlier, rfl⟩ := Option.map_eq_some_iff.1 body_eq
      exact anchorsApart_of_mem_replaceFrom isToken pass.coverage pass.assertions
        (inductionHypothesis isEarlier)

theorem grows_annotateAll
    (isToken : Text.IsToken annotator.anchorClass)
    (document : Document)
    (passes : List Pass) :
    annotator.Grows document (annotator.annotateAll document passes) := by
  induction passes using List.reverseRecOn with
  | nil => exact .refl annotator document
  | append_singleton earlier pass inductionHypothesis =>
      rw [annotateAll_append]
      exact inductionHypothesis.trans
        (grows_annotate isToken pass.coverage pass.assertions
          (annotator.annotateAll document earlier))

/-- However often a document without anchors is annotated, and with whatever assertions: from any
time to any later one the elements that are units keep their text and their anchors, and no unit
ever has two anchors at one offset. -/
theorem annotateAll_keeps_anchors
    (annotator : Annotator)
    (isToken : Text.IsToken annotator.anchorClass)
    (document : Document)
    (noAnchors :
      Node.countTags (fun tag => tag.hasClass annotator.anchorClass) document.root.children = 0)
    (earlier later : List Pass) :
    let before := annotator.annotateAll document earlier
    let after := annotator.annotateAll document (earlier ++ later)
    annotator.Grows before after ∧
      ∀ unit ∈ annotator.units ProseUnit.kept after,
        (unit.index.anchors.map AnchorSite.offset).Nodup := by
  intro before after
  constructor
  · simp only [after, annotateAll_append]
    exact grows_annotateAll isToken before later
  · intro unit isUnit
    have unit_eq := eq_ofNode_of_mem_units isUnit
    unfold units at isUnit
    cases isBody : after.body? with
    | none => simp [isBody] at isUnit
    | some body =>
        simp only [isBody] at isUnit
        have isNode := List.mem_map_of_mem (f := ProseUnit.node) isUnit
        rw [map_node_bodyUnitsFrom] at isNode
        rw [unit_eq]
        exact anchorsApart_annotateAll isToken noAnchors (earlier ++ later) isBody _ isNode

/-- A second pass finds the anchor of the first one in its place, in a paragraph as in a section. -/
theorem annotateAll_keeps_anchors_twice :
    let annotator : Annotator := {}
    let paragraph (text : String) : Node := .element { name := "p" } [.text text]
    let section_ : Node :=
      .element { name := "div", attributes := [("class", "impl")] } [paragraph "It may draw."]
    let document : Document :=
      ⟨{ name := "html" },
        [.element { name := "body" } [.text "It must not.", paragraph "It must draw.", section_]]⟩
    let first : Pass := ⟨[{ id := "draw", text := "It <...> draw<^>" }], {}⟩
    let second : Pass :=
      ⟨[{ id := "must", text := "must<^>" }, { id := "may", text := "It<^> may" },
        { id := "end", text := "draw<^>" }], {}⟩
    let before := annotator.annotateAll document [first]
    let after := annotator.annotateAll document ([first] ++ [second])
    Text.IsToken annotator.anchorClass ∧
      Node.countTags (fun tag => tag.hasClass annotator.anchorClass) document.root.children = 0 ∧
      annotator.Grows before after ∧
      ∀ unit ∈ annotator.units ProseUnit.kept after,
        (unit.index.anchors.map AnchorSite.offset).Nodup := by
  intro annotator paragraph section_ document first second before after
  have isToken : Text.IsToken annotator.anchorClass := by decide
  have noAnchors : Node.countTags (fun tag => tag.hasClass annotator.anchorClass)
      document.root.children = 0 := by
    decide
  exact ⟨isToken, noAnchors,
    annotateAll_keeps_anchors annotator isToken document noAnchors [first] [second]⟩

end Annotator

end CrossReference
end Conformance
