import Conformance.Proofs.CrossReference.Acceptance
import Conformance.Proofs.CrossReference.Growth
import Mathlib.Data.List.Nodup

/-!
# Outcomes

The outcome of an assertion and the warnings about it, counted by the units in which it is
accepted.
-/

namespace Conformance
namespace CrossReference

open Markup
open Prose (Pattern)

/-- Whether a tag is that of an anchor of an assertion. -/
def isAnchorOf (anchorClass id : String) (tag : Tag) : Bool :=
  tag.hasClass anchorClass && assertionOf? anchorClass tag == some id

/-- The number of anchors of an assertion in a document. -/
def anchorsOf (anchorClass id : String) (document : Document) : Nat :=
  Node.countTags (isAnchorOf anchorClass id) document.root.children

theorem placesOf_flatMap
    {Item : Type}
    (id : String)
    (items : List Item)
    (sightingsOf : Item → List Sighting) :
    placesOf id (items.flatMap sightingsOf) =
      items.flatMap fun item => placesOf id (sightingsOf item) := by
  simp only [placesOf, List.filter_flatMap, List.map_flatMap]

theorem plannedOf_flatMap
    {Item : Type}
    (items : List Item)
    (sightingsOf : Item → List Sighting) :
    plannedOf (items.flatMap sightingsOf) =
      items.flatMap fun item => plannedOf (sightingsOf item) := by
  simp only [plannedOf, List.filter_flatMap, List.map_flatMap]

theorem countP_plannedOf (sightings : List Sighting) (id : String) :
    (plannedOf sightings).countP (fun planned => planned.id == id) =
      (placesOf id sightings).count .free := by
  induction sightings with
  | nil => rfl
  | cons sighting sightings inductionHypothesis =>
      rw [← List.singleton_append, plannedOf_append, placesOf_append, List.countP_append,
        List.count_append, inductionHypothesis, plannedOf_singleton]
      by_cases same : sighting.id = id
      · subst same
        rw [placesOf_singleton_same]
        by_cases isFree : sighting.place = .free <;> simp [isFree]
      · rw [placesOf_singleton_other same]
        by_cases isFree : sighting.place = .free <;> simp [isFree, same]

theorem getD_outcomeOf_eq_unmatched_iff (places : List Place) :
    (outcomeOf places).getD .unmatched = .unmatched ↔ places.length = 0 := by
  rcases places with _ | ⟨first, _ | ⟨second, rest⟩⟩
  · simp [outcomeOf]
  · by_cases isFree : first = .free <;> simp [outcomeOf, isFree]
  · simp [outcomeOf]

theorem getD_outcomeOf_eq_matchedMultiple_iff (places : List Place) :
    (outcomeOf places).getD .unmatched = .matchedMultiple ↔ 2 ≤ places.length := by
  rcases places with _ | ⟨first, _ | ⟨second, rest⟩⟩
  · simp [outcomeOf]
  · by_cases isFree : first = .free <;> simp [outcomeOf, isFree]
  · simp [outcomeOf]

/-- What is sighted once is annotated if its place was free. -/
theorem getD_outcomeOf_of_length_eq_one
    {places : List Place}
    (once : places.length = 1) :
    (outcomeOf places).getD .unmatched =
      if 0 < places.count .free then .annotated else .located := by
  obtain ⟨place, rfl⟩ := List.length_eq_one_iff.1 once
  by_cases isFree : place = .free <;> simp [outcomeOf, isFree]

namespace Annotator

variable (annotator : Annotator)

/-- What is known after a walk accounts for all sightings. -/
theorem accounts_noteAll
    (coverage : Coverage)
    (candidates : List (SpecAssertion × Pattern))
    (units : List ProseUnit)
    (failures : List Error)
    (id : String) :
    (annotator.noteAll coverage candidates units { failures := failures }).Accounts
      (units.flatMap (ProseUnit.sightings annotator.anchorClass candidates)) id := by
  have accounts := (Findings.accounts_nil failures id).foldl_note
    (units.flatMap (ProseUnit.sightings annotator.anchorClass candidates))
  exact ⟨accounts.outcome_eq, accounts.count_again, accounts.count_conflict,
    accounts.count_unmatched⟩

/-- The anchors of an assertion become more by those of its sightings that found a free place. -/
theorem anchorsOf_annotate
    (isToken : Text.IsToken annotator.anchorClass)
    (document : Document)
    (assertions : List SpecAssertion)
    (coverage : Coverage)
    (id : String) :
    anchorsOf annotator.anchorClass id (annotator.annotate document assertions coverage).1 =
      anchorsOf annotator.anchorClass id document +
        (placesOf id ((annotator.visits coverage document assertions).flatMap
          (ProseUnit.sightings annotator.anchorClass (candidates assertions)))).count .free := by
  have onlyAnchors (tag : Tag) (asked : isAnchorOf annotator.anchorClass id tag = true) :
      tag.hasClass annotator.anchorClass = true :=
    (Bool.and_eq_true_iff.1 asked).1
  have asked_eq (planned : Planned) :
      isAnchorOf annotator.anchorClass id (annotator.anchorTag planned.id planned.keyword) =
        (planned.id == id) := by
    rw [isAnchorOf, annotator.hasClass_anchorTag isToken, assertionOf?_anchorTag]
    simp
  rw [anchorsOf, anchorsOf, countTags_annotate onlyAnchors, ← countP_plannedOf,
    plannedOf_flatMap]
  simp only [asked_eq]
  rfl

/-- The places of an assertion whose id no other one has. -/
theorem placesOf_visits
    {earlier later : List SpecAssertion}
    {assertion : SpecAssertion}
    (unique : ∀ other ∈ earlier ++ later, other.id ≠ assertion.id)
    (units : List ProseUnit) :
    placesOf assertion.id (units.flatMap (ProseUnit.sightings annotator.anchorClass
        (candidates (earlier ++ assertion :: later)))) =
      units.filterMap fun unit =>
        (unit.acceptance? annotator.anchorClass assertion).map
          (unit.place (unit.plan annotator.anchorClass (candidates earlier)) assertion.id) := by
  rw [placesOf_flatMap, List.filterMap_eq_flatMap_toList]
  simp only [ProseUnit.placesOf_sightings unique]

theorem length_placesOf_visits
    {earlier later : List SpecAssertion}
    {assertion : SpecAssertion}
    (unique : ∀ other ∈ earlier ++ later, other.id ≠ assertion.id)
    (units : List ProseUnit) :
    (placesOf assertion.id (units.flatMap (ProseUnit.sightings annotator.anchorClass
        (candidates (earlier ++ assertion :: later))))).length =
      units.countP fun unit => unit.accepts annotator.anchorClass assertion := by
  rw [placesOf_visits annotator unique, List.length_filterMap_eq_countP]
  simp [ProseUnit.accepts]

theorem count_taken_placesOf_visits
    {earlier later : List SpecAssertion}
    {assertion : SpecAssertion}
    (unique : ∀ other ∈ earlier ++ later, other.id ≠ assertion.id)
    (units : List ProseUnit)
    (owner : String) :
    (placesOf assertion.id (units.flatMap (ProseUnit.sightings annotator.anchorClass
        (candidates (earlier ++ assertion :: later))))).count (.taken (some owner)) =
      units.countP fun unit =>
        unit.rival? annotator.anchorClass earlier assertion == some owner := by
  rw [placesOf_visits annotator unique, List.count_filterMap]
  apply List.countP_congr
  intro unit _
  rw [beq_iff_eq, beq_iff_eq]
  exact ProseUnit.place_eq_taken_iff

/-- Nothing is sighted but the assertions that are looked for. -/
theorem placesOf_eq_nil_of_notMem
    {assertions : List SpecAssertion}
    {id : String}
    (absent : id ∉ assertions.map SpecAssertion.id)
    (units : List ProseUnit) :
    placesOf id (units.flatMap
      (ProseUnit.sightings annotator.anchorClass (candidates assertions))) = [] := by
  rw [placesOf_flatMap, List.flatMap_eq_nil_iff]
  intro unit _
  apply ProseUnit.placesOf_sightingsFrom_eq_nil
  intro candidate member same
  exact absent (same ▸ List.mem_map_of_mem (mem_candidates_iff.1 member).1)

/-- Only the assertions that are looked for have an outcome. -/
theorem outcome?_annotate_eq_none
    (document : Document)
    {assertions : List SpecAssertion}
    {id : String}
    (absent : id ∉ assertions.map SpecAssertion.id)
    (coverage : Coverage) :
    (annotator.annotate document assertions coverage).2.outcome? id = none := by
  have accounts := annotator.accounts_noteAll coverage (candidates assertions)
    (annotator.visits coverage document assertions) (failures assertions) id
  rw [annotate_snd, outcome?_foldl_review, if_neg absent, accounts.outcome_eq,
    placesOf_eq_nil_of_notMem annotator absent]
  rfl

/-- Exactly the assertions that are looked for have an outcome. -/
theorem names_outcomes_annotate
    (document : Document)
    {assertions : List SpecAssertion}
    (distinct : (assertions.map SpecAssertion.id).Nodup)
    (coverage : Coverage) :
    (annotator.annotate document assertions coverage).2.outcomes.names.Perm
      (assertions.map SpecAssertion.id) := by
  have namesNodup :
      (annotator.annotate document assertions coverage).2.outcomes.names.Nodup :=
    NameMap.nodup_names _
  rw [List.perm_ext_iff_of_nodup namesNodup distinct]
  intro id
  rw [NameMap.mem_names_iff, ← Findings.outcome?]
  by_cases listed : id ∈ assertions.map SpecAssertion.id
  · simp [annotate_snd, outcome?_foldl_review, listed]
  · simp [outcome?_annotate_eq_none annotator document listed, listed]

/-- The assertions that no test claims are listed in their order. -/
theorem unclaimed_annotate
    (document : Document)
    (assertions : List SpecAssertion)
    (coverage : Coverage) :
    (annotator.annotate document assertions coverage).2.unclaimed =
      (assertions.map SpecAssertion.id).filter fun id => !coverage.isClaimed id := by
  rw [annotate_snd, unclaimed_foldl_review, noteAll, Findings.addDivisions,
    Findings.unclaimed_foldl_note, List.nil_append]

/-- The assertions that have no pattern are listed in their order. -/
theorem failures_annotate
    (document : Document)
    (assertions : List SpecAssertion)
    (coverage : Coverage) :
    (annotator.annotate document assertions coverage).2.failures = failures assertions := by
  rw [annotate_snd, failures_foldl_review, noteAll, Findings.addDivisions,
    Findings.failures_foldl_note]

/-- The outcome of an assertion and the warnings about it are given by the places at which it was
sighted. -/
theorem annotate_accounts
    (document : Document)
    (assertions : List SpecAssertion)
    (coverage : Coverage)
    {id : String}
    (listedOnce : (assertions.map SpecAssertion.id).count id = 1) :
    let findings := (annotator.annotate document assertions coverage).2
    let places := placesOf id ((annotator.visits coverage document assertions).flatMap
      (ProseUnit.sightings annotator.anchorClass (candidates assertions)))
    findings.outcome? id = some ((outcomeOf places).getD .unmatched) ∧
      findings.warnings.count (.unmatched id) = (if places.length = 0 then 1 else 0) ∧
      findings.warnings.count (.matchedMultiple id none) = places.length - 1 ∧
      ∀ owner, findings.warnings.count (.matchedMultiple id (some owner)) =
        places.count (.taken (some owner)) := by
  intro findings places
  have accounts := annotator.accounts_noteAll coverage (candidates assertions)
    (annotator.visits coverage document assertions) (failures assertions) id
  have listed : id ∈ assertions.map SpecAssertion.id := by
    rw [← List.one_le_count_iff]
    omega
  simp only [findings, annotate_snd]
  refine ⟨?_, ?_, ?_, ?_⟩
  · rw [outcome?_foldl_review, if_pos listed, accounts.outcome_eq]
  · rw [count_unmatched_foldl_review, accounts.count_unmatched, accounts.outcome_eq,
      listedOnce, Nat.zero_add]
    simp only [getD_outcomeOf_eq_unmatched_iff]
    rfl
  · rw [count_matchedMultiple_foldl_review, accounts.count_again]
  · intro owner
    rw [count_matchedMultiple_foldl_review, accounts.count_conflict]

theorem count_id_eq_one
    {earlier later : List SpecAssertion}
    {assertion : SpecAssertion}
    (unique : ∀ other ∈ earlier ++ later, other.id ≠ assertion.id) :
    ((earlier ++ assertion :: later).map SpecAssertion.id).count assertion.id = 1 := by
  have absent (others : List SpecAssertion) (among : others ⊆ earlier ++ later) :
      (others.map SpecAssertion.id).count assertion.id = 0 := by
    rw [List.count_eq_zero]
    intro member
    obtain ⟨other, isOther, same⟩ := List.mem_map.1 member
    exact unique other (among isOther) same
  rw [List.map_append, List.map_cons, List.count_append, List.count_cons_self,
    absent earlier (List.subset_append_left earlier later),
    absent later (List.subset_append_right earlier later)]

theorem id_ne_of_nodup
    {earlier later : List SpecAssertion}
    {assertion : SpecAssertion}
    (distinct : ((earlier ++ assertion :: later).map SpecAssertion.id).Nodup) :
    ∀ other ∈ earlier ++ later, other.id ≠ assertion.id := by
  rw [List.map_append, List.map_cons, List.nodup_middle, List.nodup_cons, ← List.map_append]
    at distinct
  intro other member same
  apply distinct.1
  rw [← same]
  exact List.mem_map_of_mem member

/-- Every assertion has one outcome, and it and the warnings about the assertion are given by the
units in which the assertion is accepted. -/
theorem annotate_outcomes
    (annotator : Annotator)
    (isToken : Text.IsToken annotator.anchorClass)
    (document : Document)
    (assertions : List SpecAssertion)
    (distinct : (assertions.map SpecAssertion.id).Nodup)
    (coverage : Coverage) :
    let result := annotator.annotate document assertions coverage
    let visits := annotator.visits coverage document assertions
    result.2.outcomes.names.Perm (assertions.map SpecAssertion.id) ∧
      ∀ earlier assertion later, assertions = earlier ++ assertion :: later →
        let matchCount := visits.countP fun unit => unit.accepts annotator.anchorClass assertion
        let outcome := result.2.outcome? assertion.id
        let isInserted :=
          anchorsOf annotator.anchorClass assertion.id document <
            anchorsOf annotator.anchorClass assertion.id result.1
        (outcome = some .unmatched ↔ matchCount = 0) ∧
          result.2.warnings.count (.unmatched assertion.id) =
            (if matchCount = 0 then 1 else 0) ∧
          (outcome = some .matchedMultiple ↔ 2 ≤ matchCount) ∧
          (matchCount = 1 →
            outcome = some (if isInserted then .annotated else .located)) ∧
          result.2.warnings.count (.matchedMultiple assertion.id none) = matchCount - 1 ∧
          ∀ owner, result.2.warnings.count (.matchedMultiple assertion.id (some owner)) =
            visits.countP fun unit =>
              unit.rival? annotator.anchorClass earlier assertion == some owner := by
  intro result visits
  refine ⟨names_outcomes_annotate annotator document distinct coverage, ?_⟩
  rintro earlier assertion later rfl matchCount outcome isInserted
  have unique := id_ne_of_nodup distinct
  have counted := annotator.length_placesOf_visits unique visits
  have rivals := annotator.count_taken_placesOf_visits unique visits
  have inserted := annotator.anchorsOf_annotate isToken document
    (earlier ++ assertion :: later) coverage assertion.id
  obtain ⟨outcome_eq, count_unmatched, count_again, count_conflict⟩ :=
    annotator.annotate_accounts document (earlier ++ assertion :: later) coverage
      (count_id_eq_one unique)
  simp only [outcome, result]
  rw [outcome_eq, count_unmatched, count_again]
  refine ⟨?_, ?_, ?_, ?_, ?_, ?_⟩
  · rw [Option.some_inj, getD_outcomeOf_eq_unmatched_iff, counted]
  · rw [counted]
  · rw [Option.some_inj, getD_outcomeOf_eq_matchedMultiple_iff, counted]
  · intro once
    rw [getD_outcomeOf_of_length_eq_one (counted.trans once)]
    simp only [isInserted, result, inserted, Nat.lt_add_right_iff_pos]
    rfl
  · rw [counted]
  · intro owner
    rw [count_conflict, rivals]

/-- An assertion that is accepted in two paragraphs is warned of once.  Another one that is accepted
at the same offset of the first paragraph gets no anchor, and the warning about it names the first
one. -/
theorem annotate_outcomes_shared :
    let annotator : Annotator := {}
    let paragraph (text : String) : Node := .element { name := "p" } [.text text]
    let document : Document :=
      ⟨{ name := "html" },
        [.element { name := "body" } [paragraph "It must draw.", paragraph "You must draw."]]⟩
    let draw : SpecAssertion := { id := "draw", text := "must<^> draw" }
    let shape : SpecAssertion := { id := "shape", text := "It must<^>" }
    let findings := (annotator.annotate document [draw, shape] {}).2
    Text.IsToken annotator.anchorClass ∧ ([draw, shape].map SpecAssertion.id).Nodup ∧
      (findings.outcome? "draw" = some .matchedMultiple ∧
        findings.warnings.count (.matchedMultiple "draw" none) = 1) ∧
      (findings.outcome? "shape" = some .located ∧
        findings.warnings.count (.matchedMultiple "shape" none) = 0 ∧
        findings.warnings.count (.matchedMultiple "shape" (some "draw")) = 1) := by
  intro annotator paragraph document draw shape findings
  have isToken : Text.IsToken annotator.anchorClass := by decide
  have distinct : ([draw, shape].map SpecAssertion.id).Nodup := by decide
  have twice :
      (annotator.visits {} document [draw, shape]).countP
        (fun unit => unit.accepts annotator.anchorClass draw) = 2 := by
    decide +kernel
  have once :
      (annotator.visits {} document [draw, shape]).countP
        (fun unit => unit.accepts annotator.anchorClass shape) = 1 := by
    decide +kernel
  have notInserted :
      ¬ anchorsOf annotator.anchorClass "shape" document <
        anchorsOf annotator.anchorClass "shape"
          (annotator.annotate document [draw, shape] {}).1 := by
    decide +kernel
  have rivalOnce :
      (annotator.visits {} document [draw, shape]).countP
        (fun unit => unit.rival? annotator.anchorClass [draw] shape == some "draw") = 1 := by
    decide +kernel
  obtain ⟨_, each⟩ := annotate_outcomes annotator isToken document [draw, shape] distinct {}
  obtain ⟨_, _, multiple, _, again, _⟩ := each [] draw [shape] rfl
  obtain ⟨_, _, _, single, noneAgain, conflicts⟩ := each [draw] shape [] rfl
  rw [twice] at multiple again
  rw [once] at single noneAgain
  exact ⟨isToken, distinct, ⟨multiple.2 (Nat.le_refl 2), again⟩,
    (single rfl).trans (congrArg some (if_neg notInserted)), noneAgain,
    (conflicts "draw").trans rivalOnce⟩

end Annotator

end CrossReference
end Conformance
