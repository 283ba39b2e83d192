import Conformance.Proofs.CrossReference.Outcomes
import Conformance.Proofs.CrossReference.Repetition

/-!
# Independence of assertions

An assertion that is looked for alone is found if it is accepted in some unit of the document as it
stands.  Among others it is found if it is accepted in some unit as it is visited, and then anchors
of other assertions stand among the siblings that a back-reference counts.  Where anchors come only
into elements the siblings keep their places and their texts; an anchor that is put into a text node
makes several siblings of it.
-/

namespace Conformance
namespace CrossReference

open Markup
open Prose (Pattern)

/-- Whether an assertion was found. -/
def Findings.isMatched (findings : Findings) (id : String) : Bool :=
  (findings.outcome? id).any Outcome.isMatched

/-- Whether no other sibling matters for an assertion: it cannot be looked for, or it has no
back-reference, or one to the unit itself or for the empty text. -/
def LooksAtNoSibling (assertion : SpecAssertion) : Prop :=
  ∀ pattern, Pattern.ofAssertion assertion = .ok pattern →
    ∀ reference, assertion.previously = some reference →
      reference.siblings = 0 ∨ reference.text = ""

theorem exists_mem_iff_of_map_eq
    {Item : Type}
    {holds : Item → Bool}
    {first second : List Item}
    (same : first.map holds = second.map holds) :
    (∃ item ∈ first, holds item = true) ↔ ∃ item ∈ second, holds item = true := by
  rw [← List.mem_map, ← List.mem_map, same]

namespace Annotator

variable (annotator : Annotator)

/-! ## Found in a visited unit -/

theorem isMatched_annotate_iff
    (document : Document)
    {earlier later : List SpecAssertion}
    {assertion : SpecAssertion}
    (unique : ∀ other ∈ earlier ++ later, other.id ≠ assertion.id)
    (coverage : Coverage) :
    (annotator.annotate document (earlier ++ assertion :: later) coverage).2.isMatched
        assertion.id = true ↔
      ∃ unit ∈ annotator.visits coverage document (earlier ++ assertion :: later),
        unit.accepts annotator.anchorClass assertion = true := by
  obtain ⟨outcome_eq, _⟩ := annotator.annotate_accounts document
    (earlier ++ assertion :: later) coverage (count_id_eq_one unique)
  have notFound := getD_outcomeOf_eq_unmatched_iff (placesOf assertion.id
    ((annotator.visits coverage document (earlier ++ assertion :: later)).flatMap
      (ProseUnit.sightings annotator.anchorClass (candidates (earlier ++ assertion :: later)))))
  rw [annotator.length_placesOf_visits unique, List.countP_eq_zero] at notFound
  rw [Findings.isMatched, outcome_eq, Option.any_some, Outcome.isMatched, bne_iff_ne, Ne, notFound]
  simp

/-- Found alone is found in the document as it stands. -/
theorem isMatched_alone_iff
    (document : Document)
    (assertion : SpecAssertion)
    (coverage : Coverage) :
    (annotator.annotate document [assertion] coverage).2.isMatched assertion.id = true ↔
      ∃ unit ∈ annotator.units ProseUnit.kept document,
        unit.accepts annotator.anchorClass assertion = true := by
  let standIns := annotator.standIns coverage (candidates [assertion])
  let isAccepted (unit : ProseUnit) : Bool := unit.accepts annotator.anchorClass assertion
  have unaccepted {unit : ProseUnit} (rejected : ¬ isAccepted unit = true) :
      standIns unit = unit.kept := by
    apply standIns_eq_kept
    intro other isOther offset accepted
    cases List.mem_singleton.1 isOther
    simp [isAccepted, ProseUnit.accepts, accepted] at rejected
  -- As long as the assertion is not accepted, no anchor comes in.
  have sameAny :
      (annotator.units standIns document).any isAccepted =
        (annotator.units ProseUnit.kept document).any isAccepted := by
    cases visited : (annotator.units standIns document).any isAccepted with
    | false =>
        rw [← units_congr fun unit isUnit => unaccepted (List.any_eq_false.1 visited unit isUnit),
          visited]
    | true =>
        cases standing : (annotator.units ProseUnit.kept document).any isAccepted with
        | true => rfl
        | false =>
            have same := units_congr fun unit isUnit =>
              (unaccepted (List.any_eq_false.1 standing unit isUnit)).symm
            rw [← same, standing] at visited
            cases visited
  have unique : ∀ other ∈ ([] ++ [] : List SpecAssertion), other.id ≠ assertion.id := by simp
  have found := annotator.isMatched_annotate_iff document unique coverage
  rw [List.nil_append] at found
  rw [found, ← List.any_eq_true, ← List.any_eq_true]
  exact Bool.coe_iff_coe.2 sameAny

/-! ## Siblings that keep their texts -/

section Keeping

variable {annotator} {replace : ProseUnit → List Node}

/-- Whether what stands for a unit is one node with its text. -/
def Keeps (anchorClass : String) (replace : ProseUnit → List Node) (unit : ProseUnit) : Prop :=
  proses anchorClass (replace unit) = proses anchorClass [unit.node]

theorem proses_flatMap_unitsFrom
    {before nodes : List Node}
    (keeps : ∀ unit ∈ unitsFrom annotator.anchorClass replace before nodes,
      Keeps annotator.anchorClass replace unit) :
    proses annotator.anchorClass
        ((unitsFrom annotator.anchorClass replace before nodes).flatMap replace) =
      proses annotator.anchorClass nodes := by
  induction nodes generalizing before with
  | nil => rfl
  | cons node rest inductionHypothesis =>
      obtain ⟨here, later⟩ := List.forall_mem_cons.1 keeps
      rw [unitsFrom, List.flatMap_cons, proses_append, here, inductionHypothesis later,
        ← proses_append]
      rfl

theorem map_accepts_unitsFrom
    (assertion : SpecAssertion)
    {before otherBefore nodes : List Node}
    (keeps : ∀ unit ∈ unitsFrom annotator.anchorClass replace before nodes,
      Keeps annotator.anchorClass replace unit)
    (same : proses annotator.anchorClass before = proses annotator.anchorClass otherBefore) :
    (unitsFrom annotator.anchorClass replace before nodes).map
        (fun unit => unit.accepts annotator.anchorClass assertion) =
      (unitsFrom annotator.anchorClass ProseUnit.kept otherBefore nodes).map
        (fun unit => unit.accepts annotator.anchorClass assertion) := by
  induction nodes generalizing before otherBefore with
  | nil => rfl
  | cons node rest inductionHypothesis =>
      obtain ⟨here, later⟩ := List.forall_mem_cons.1 keeps
      have sameNext :
          proses annotator.anchorClass
              (before ++ replace (ProseUnit.ofNode annotator.anchorClass before node)) =
            proses annotator.anchorClass (otherBefore ++ [node]) := by
        rw [proses_append, proses_append, same, here]
        rfl
      rw [unitsFrom, unitsFrom, List.map_cons, List.map_cons, inductionHypothesis later sameNext]
      simp only [ProseUnit.accepts, ProseUnit.acceptance?_congr same rfl rfl]
      rfl

theorem proses_replaceChild
    {before : List Node}
    {node : Node}
    (keeps : ∀ unit ∈ annotator.childUnits replace before node,
      Keeps annotator.anchorClass replace unit) :
    proses annotator.anchorClass (annotator.replaceChild replace before node) =
      proses annotator.anchorClass [node] := by
  unfold childUnits at keeps
  unfold replaceChild
  cases isSection : annotator.section? node with
  | none => exact keeps _ (by simp [isSection])
  | some element =>
      simp only [isSection] at keeps
      have inside := congrArg List.flatten (proses_flatMap_unitsFrom keeps)
      rw [← proseOf_marks_eq_flatten, ← proseOf_marks_eq_flatten] at inside
      rw [toNode_of_section?_eq_some isSection]
      exact congrArg (fun text => [text]) (proseOf_marks_element_congr inside element.tag)

theorem map_accepts_bodyUnitsFrom
    (assertion : SpecAssertion)
    {before otherBefore nodes : List Node}
    (keeps : ∀ unit ∈ annotator.bodyUnitsFrom replace before nodes,
      Keeps annotator.anchorClass replace unit)
    (same : proses annotator.anchorClass before = proses annotator.anchorClass otherBefore) :
    (annotator.bodyUnitsFrom replace before nodes).map
        (fun unit => unit.accepts annotator.anchorClass assertion) =
      (annotator.bodyUnitsFrom ProseUnit.kept otherBefore nodes).map
        (fun unit => unit.accepts annotator.anchorClass assertion) := by
  induction nodes generalizing before otherBefore with
  | nil => rfl
  | cons node rest inductionHypothesis =>
      obtain ⟨here, later⟩ := List.forall_mem_append.1 keeps
      have sameNext :
          proses annotator.anchorClass (before ++ annotator.replaceChild replace before node) =
            proses annotator.anchorClass (otherBefore ++ [node]) := by
        rw [proses_append, proses_append, same, proses_replaceChild here]
      have sameChild :
          (annotator.childUnits replace before node).map
              (fun unit => unit.accepts annotator.anchorClass assertion) =
            (annotator.childUnits ProseUnit.kept otherBefore node).map
              (fun unit => unit.accepts annotator.anchorClass assertion) := by
        unfold childUnits at here ⊢
        cases isSection : annotator.section? node with
        | none =>
            simp only [List.map_cons, List.map_nil, ProseUnit.accepts,
              ProseUnit.acceptance?_congr same rfl rfl]
        | some element =>
            simp only [isSection] at here
            exact map_accepts_unitsFrom assertion here rfl
      rw [bodyUnitsFrom, bodyUnitsFrom, List.map_append, List.map_append, sameChild,
        replaceChild_kept, inductionHypothesis later sameNext]

end Keeping

variable {annotator}

/-- Everything but a text node that is divided keeps its text and its place. -/
theorem keeps_standIns
    (isToken : Text.IsToken annotator.anchorClass)
    (coverage : Coverage)
    {assertions : List SpecAssertion}
    {before : List Node}
    {node : Node}
    (undivided : isTextNode node = true →
      (ProseUnit.ofNode annotator.anchorClass before node).IsSettled
        annotator.anchorClass assertions) :
    Keeps annotator.anchorClass (annotator.standIns coverage (candidates assertions))
      (ProseUnit.ofNode annotator.anchorClass before node) := by
  by_cases isText : isTextNode node = true
  · rw [Keeps, standIns_eq_kept coverage (undivided isText)]
    rfl
  · rw [Bool.not_eq_true] at isText
    obtain ⟨changed, standIns_eq, _⟩ :=
      exists_standIns_eq coverage assertions isText before
    obtain ⟨_, _, inserted⟩ :=
      annotator.insertedAll_standIns coverage (candidates assertions) before node
    rw [standIns_eq] at inserted
    rw [Keeps, standIns_eq]
    exact congrArg (fun text => [text]) (inserted.proseOf_marks_eq isToken)

/-- Where no text node is divided, an assertion is found among others exactly if it is found
alone. -/
theorem isMatched_iff_of_undivided
    (isToken : Text.IsToken annotator.anchorClass)
    (document : Document)
    {earlier later : List SpecAssertion}
    {assertion : SpecAssertion}
    (unique : ∀ other ∈ earlier ++ later, other.id ≠ assertion.id)
    (coverage : Coverage)
    (undivided :
      ∀ unit ∈ annotator.visits coverage document (earlier ++ assertion :: later),
        isTextNode unit.node = true →
          unit.IsSettled annotator.anchorClass (earlier ++ assertion :: later)) :
    (annotator.annotate document (earlier ++ assertion :: later) coverage).2.isMatched
        assertion.id = true ↔
      (annotator.annotate document [assertion] coverage).2.isMatched assertion.id = true := by
  rw [isMatched_annotate_iff annotator document unique, isMatched_alone_iff]
  have keeps (unit : ProseUnit)
      (isVisited : unit ∈ annotator.visits coverage document (earlier ++ assertion :: later)) :
      Keeps annotator.anchorClass
        (annotator.standIns coverage (candidates (earlier ++ assertion :: later))) unit := by
    have settled := undivided unit isVisited
    rw [eq_ofNode_of_mem_units isVisited] at settled ⊢
    exact keeps_standIns isToken coverage settled
  have sameAcceptance :
      (annotator.visits coverage document (earlier ++ assertion :: later)).map
          (fun unit => unit.accepts annotator.anchorClass assertion) =
        (annotator.units ProseUnit.kept document).map
          (fun unit => unit.accepts annotator.anchorClass assertion) := by
    unfold visits units at keeps ⊢
    cases isBody : document.body? with
    | none => rfl
    | some body =>
        simp only [isBody] at keeps
        exact map_accepts_bodyUnitsFrom assertion keeps rfl
  exact exists_mem_iff_of_map_eq sameAcceptance

/-! ## Assertions that look at no other sibling -/

/-- The unit itself stands behind its siblings. -/
theorem textBefore_zero (anchorClass : String) (before : List Node) (node : Node) :
    (ProseUnit.ofNode anchorClass before node).textBefore anchorClass 0 =
      proseOf (marks anchorClass [node]) := by
  simp [ProseUnit.textBefore, ProseUnit.ofNode, proses, List.getD_eq_getElem?_getD]

theorem acceptance?_eq_of_looksAtNoSibling
    {assertion : SpecAssertion}
    (blind : LooksAtNoSibling assertion)
    (anchorClass : String)
    (before otherBefore : List Node)
    (node : Node) :
    (ProseUnit.ofNode anchorClass before node).acceptance? anchorClass assertion =
      (ProseUnit.ofNode anchorClass otherBefore node).acceptance? anchorClass assertion := by
  cases compiled : Pattern.ofAssertion assertion with
  | error error =>
      rw [ProseUnit.acceptance?_of_error compiled, ProseUnit.acceptance?_of_error compiled]
  | ok pattern =>
      have sameAnswer :
          (assertion.previously.all fun reference =>
              (ProseUnit.ofNode anchorClass before node).Meets anchorClass reference) =
            assertion.previously.all fun reference =>
              (ProseUnit.ofNode anchorClass otherBefore node).Meets anchorClass reference := by
        cases previously : assertion.previously with
        | none => rfl
        | some reference =>
            rw [Option.all_some, Option.all_some, decide_eq_decide, ProseUnit.Meets,
              ProseUnit.Meets]
            rcases blind pattern compiled reference previously with itself | anything
            · rw [itself, textBefore_zero, textBefore_zero]
            · simp [anything]
      rw [ProseUnit.acceptance?, ProseUnit.acceptance?, sameAnswer]
      rfl

/-- An assertion that looks at no other sibling is found among others exactly if it is found
alone. -/
theorem isMatched_iff_of_looksAtNoSibling
    (document : Document)
    {earlier later : List SpecAssertion}
    {assertion : SpecAssertion}
    (unique : ∀ other ∈ earlier ++ later, other.id ≠ assertion.id)
    (coverage : Coverage)
    (blind : LooksAtNoSibling assertion) :
    (annotator.annotate document (earlier ++ assertion :: later) coverage).2.isMatched
        assertion.id = true ↔
      (annotator.annotate document [assertion] coverage).2.isMatched assertion.id = true := by
  rw [isMatched_annotate_iff annotator document unique, isMatched_alone_iff]
  have acceptedAt (replace : ProseUnit → List Node) :
      (annotator.units replace document).map
          (fun unit => unit.accepts annotator.anchorClass assertion) =
        ((annotator.units replace document).map ProseUnit.node).map fun node =>
          (ProseUnit.ofNode annotator.anchorClass [] node).accepts annotator.anchorClass
            assertion := by
    rw [List.map_map]
    apply List.map_congr_left
    intro unit isUnit
    rw [eq_ofNode_of_mem_units isUnit]
    simp only [ProseUnit.accepts,
      acceptance?_eq_of_looksAtNoSibling blind annotator.anchorClass unit.before []]
    rfl
  have sameAcceptance :=
    (acceptedAt (annotator.standIns coverage (candidates (earlier ++ assertion :: later)))).trans
      ((congrArg _ (map_node_units_eq ProseUnit.kept document)).trans
        (acceptedAt ProseUnit.kept).symm)
  exact exists_mem_iff_of_map_eq sameAcceptance

end Annotator

end CrossReference
end Conformance
