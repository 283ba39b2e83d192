import Conformance.Proofs.CrossReference.Outcomes
import Conformance.Proofs.CrossReference.Parallel

/-!
# What anchors do not depend on

Neither the tests that claim assertions nor the keywords that assertions are given have a say in
where anchors come in and what is found: they show in the class and the links of the anchors alone.
-/

namespace Conformance

namespace SpecAssertion

/-- The assertion without the keyword that it is given. -/
def unlabelled (assertion : SpecAssertion) : SpecAssertion :=
  { assertion with keyword := none }

end SpecAssertion

namespace Prose
namespace Pattern

/-- What is looked for does not depend on the keyword that is given. -/
theorem map_tokens_ofText (given other : Option Keyword) (text : List Char) :
    (ofText given text).map tokens = (ofText other text).map tokens := by
  simp only [ofText]
  split
  · rfl
  · split <;> rfl

theorem map_mapError
    {Fault Refusal First Second : Type}
    (answer : Except Fault First)
    (refuse : Fault → Refusal)
    (change : First → Second) :
    (answer.mapError refuse).map change = (answer.map change).mapError refuse := by
  cases answer <;> rfl

theorem map_tokens_ofAssertion
    {assertion other : SpecAssertion}
    (same : other.unlabelled = assertion.unlabelled) :
    (ofAssertion other).map tokens = (ofAssertion assertion).map tokens := by
  obtain ⟨sameId, sameText, _⟩ := SpecAssertion.mk.inj same
  rw [ofAssertion, ofAssertion, compile, compile, sameId, sameText, map_mapError, map_mapError,
    map_tokens_ofText other.keyword assertion.keyword]

/-- Assertions that differ in keywords alone have no patterns, for one reason, or patterns with the
same tokens. -/
theorem ofAssertion_cases
    {assertion other : SpecAssertion}
    (same : other.unlabelled = assertion.unlabelled) :
    (∃ error, ofAssertion assertion = .error error ∧ ofAssertion other = .error error) ∨
      ∃ pattern otherPattern, ofAssertion assertion = .ok pattern ∧
        ofAssertion other = .ok otherPattern ∧ otherPattern.tokens = pattern.tokens := by
  have sameTokens := map_tokens_ofAssertion same
  cases compiled : ofAssertion assertion with
  | error error =>
      cases otherCompiled : ofAssertion other with
      | error otherError =>
          rw [compiled, otherCompiled] at sameTokens
          exact .inl ⟨error, rfl, congrArg Except.error (Except.error.inj sameTokens)⟩
      | ok otherPattern =>
          rw [compiled, otherCompiled] at sameTokens
          cases sameTokens
  | ok pattern =>
      cases otherCompiled : ofAssertion other with
      | error otherError =>
          rw [compiled, otherCompiled] at sameTokens
          cases sameTokens
      | ok otherPattern =>
          rw [compiled, otherCompiled] at sameTokens
          exact .inr ⟨pattern, otherPattern, rfl, rfl, Except.ok.inj sameTokens⟩

end Pattern
end Prose

namespace CrossReference

open Markup
open Prose (Pattern)

/-! ## What is planned -/

/-- Whether two assertions differ at most in the keyword that they are given, and have the patterns
that stand beside them. -/
def SameCandidate (first second : SpecAssertion × Pattern) : Prop :=
  second.1.unlabelled = first.1.unlabelled ∧
    Pattern.ofAssertion first.1 = .ok first.2 ∧ Pattern.ofAssertion second.1 = .ok second.2

/-- The planned anchor without its keyword. -/
def Planned.unlabelled (planned : Planned) : Planned :=
  { planned with keyword := .none }

/-- The sighting without the keyword of its assertion. -/
def Sighting.unlabelled (sighting : Sighting) : Sighting :=
  { sighting with keyword := .none }

theorem map_unlabelled_plannedOf (sightings : List Sighting) :
    (plannedOf sightings).map Planned.unlabelled =
      plannedOf (sightings.map Sighting.unlabelled) := by
  rw [plannedOf, plannedOf, List.filter_map, List.map_map, List.map_map]
  rfl

namespace Annotator

/-- Assertions that differ in keywords alone lead to candidates that do. -/
theorem forall₂_candidates
    {assertions others : List SpecAssertion}
    (same : others.map SpecAssertion.unlabelled = assertions.map SpecAssertion.unlabelled) :
    List.Forall₂ SameCandidate (candidates assertions) (candidates others) := by
  induction assertions generalizing others with
  | nil =>
      rw [List.map_nil, List.map_eq_nil_iff] at same
      subst same
      exact .nil
  | cons assertion assertions inductionHypothesis =>
      obtain ⟨other, rest, rfl, sameFirst, sameRest⟩ := List.map_eq_cons_iff.1 same
      rcases Pattern.ofAssertion_cases sameFirst with
        ⟨error, compiled, otherCompiled⟩ | ⟨pattern, otherPattern, compiled, otherCompiled, _⟩
      · rw [candidates_cons_of_error compiled, candidates_cons_of_error otherCompiled]
        exact inductionHypothesis sameRest
      · rw [candidates_cons_of_ok compiled, candidates_cons_of_ok otherCompiled]
        exact .cons ⟨sameFirst, compiled, otherCompiled⟩ (inductionHypothesis sameRest)

/-- The same assertions have no pattern, for the same reasons. -/
theorem failures_eq
    {assertions others : List SpecAssertion}
    (same : others.map SpecAssertion.unlabelled = assertions.map SpecAssertion.unlabelled) :
    failures others = failures assertions := by
  induction assertions generalizing others with
  | nil =>
      rw [List.map_nil, List.map_eq_nil_iff] at same
      rw [same]
  | cons assertion assertions inductionHypothesis =>
      obtain ⟨other, rest, rfl, sameFirst, sameRest⟩ := List.map_eq_cons_iff.1 same
      have sameFailures := inductionHypothesis sameRest
      unfold failures at sameFailures ⊢
      rw [List.filterMap_cons, List.filterMap_cons, sameFailures]
      rcases Pattern.ofAssertion_cases sameFirst with
        ⟨error, compiled, otherCompiled⟩ | ⟨pattern, otherPattern, compiled, otherCompiled, _⟩
      · rw [compiled, otherCompiled]
      · rw [compiled, otherCompiled]

end Annotator

namespace ProseUnit

variable {anchorClass : String}

/-- Where an assertion is accepted does not depend on its keyword. -/
theorem acceptance?_unlabelled
    {assertion other : SpecAssertion}
    (same : other.unlabelled = assertion.unlabelled)
    (unit : ProseUnit) :
    unit.acceptance? anchorClass other = unit.acceptance? anchorClass assertion := by
  obtain ⟨_, _, _, samePreviously⟩ := SpecAssertion.mk.inj same
  rcases Pattern.ofAssertion_cases same with
    ⟨error, compiled, otherCompiled⟩ | ⟨pattern, otherPattern, compiled, otherCompiled, tokens_eq⟩
  · rw [acceptance?_of_error compiled, acceptance?_of_error otherCompiled]
  · rw [acceptance?_of_ok compiled, acceptance?_of_ok otherCompiled, acceptedAt?, acceptedAt?,
      Pattern.anchorOffset?, Pattern.anchorOffset?, tokens_eq, samePreviously]

/-- What stands at a place does not depend on the keywords of the planned anchors. -/
theorem place_map_unlabelled
    (unit : ProseUnit)
    (plan : List Planned)
    (id : String)
    (offset : Nat) :
    unit.place (plan.map Planned.unlabelled) id offset = unit.place plan id offset := by
  have sameOffset :
      (fun planned : Planned => planned.offset == offset) ∘ Planned.unlabelled =
        fun planned => planned.offset == offset :=
    rfl
  rw [place, place, List.find?_map, sameOffset]
  cases plan.find? fun planned => planned.offset == offset <;> rfl

/-- One assertion is seen alike in one node behind siblings with the same texts. -/
theorem map_unlabelled_sighting?
    {first second : ProseUnit}
    (sameUnit : SameUnit anchorClass first second)
    {plan otherPlan : List Planned}
    (samePlan : otherPlan.map Planned.unlabelled = plan.map Planned.unlabelled)
    {candidate other : SpecAssertion × Pattern}
    (sameCandidate : SameCandidate candidate other) :
    (second.sighting? anchorClass otherPlan other).map Sighting.unlabelled =
      (first.sighting? anchorClass plan candidate).map Sighting.unlabelled := by
  obtain ⟨sameAssertion, compiles, otherCompiles⟩ := sameCandidate
  obtain ⟨before, otherBefore, node, rfl, rfl, sameTexts⟩ := sameUnit
  have sameId : other.1.id = candidate.1.id := (SpecAssertion.mk.inj sameAssertion).1
  have accepted_eq :
      (ofNode anchorClass otherBefore node).acceptedAt? anchorClass other.1 other.2 =
        (ofNode anchorClass before node).acceptedAt? anchorClass candidate.1 candidate.2 := by
    rw [← acceptance?_of_ok compiles, ← acceptance?_of_ok otherCompiles,
      acceptance?_congr sameTexts rfl rfl, acceptance?_unlabelled sameAssertion]
  have place_eq (offset : Nat) :
      (ofNode anchorClass otherBefore node).place otherPlan candidate.1.id offset =
        (ofNode anchorClass before node).place plan candidate.1.id offset := by
    rw [← place_map_unlabelled, samePlan, place_map_unlabelled]
    rfl
  rw [sighting?, sighting?, accepted_eq, sameId, Option.map_map, Option.map_map]
  simp only [place_eq]
  rfl

/-- The same is seen in one node behind siblings with the same texts, whatever the keywords are. -/
theorem map_unlabelled_sightingsFrom
    {first second : ProseUnit}
    (sameUnit : SameUnit anchorClass first second)
    {plan otherPlan : List Planned}
    (samePlan : otherPlan.map Planned.unlabelled = plan.map Planned.unlabelled)
    {candidates others : List (SpecAssertion × Pattern)}
    (sameCandidates : List.Forall₂ SameCandidate candidates others) :
    (second.sightingsFrom anchorClass otherPlan others).map Sighting.unlabelled =
      (first.sightingsFrom anchorClass plan candidates).map Sighting.unlabelled := by
  induction sameCandidates generalizing plan otherPlan with
  | nil => rfl
  | cons sameCandidate _ inductionHypothesis =>
      have sameSeen := congrArg Option.toList
        (map_unlabelled_sighting? sameUnit samePlan sameCandidate)
      rw [Option.toList_map, Option.toList_map] at sameSeen
      rw [sightingsFrom, sightingsFrom, List.map_append, List.map_append, sameSeen]
      congr 1
      apply inductionHypothesis
      rw [List.map_append, List.map_append, samePlan, map_unlabelled_plannedOf,
        map_unlabelled_plannedOf, sameSeen]

end ProseUnit

/-! ## What is found -/

namespace Findings

/-- Whether the same is known about the assertions, apart from which are claimed. -/
structure SameKnowledge (first second : Findings) : Prop where
  outcomes_eq : second.outcomes = first.outcomes
  warnings_eq : second.warnings = first.warnings
  failures_eq : second.failures = first.failures

theorem sameKnowledge_addDivisions (findings : Findings) (first second : List Division) :
    (findings.addDivisions first).SameKnowledge (findings.addDivisions second) :=
  ⟨rfl, rfl, rfl⟩

/-- A sighting is noted without its keyword. -/
theorem foldl_note_map_unlabelled (findings : Findings) (sightings : List Sighting) :
    (sightings.map Sighting.unlabelled).foldl note findings = sightings.foldl note findings :=
  List.foldl_map

end Findings

namespace Annotator

/-- The review of an assertion adds the same, whatever is claimed. -/
theorem sameKnowledge_review
    (coverage otherCoverage : Coverage)
    {first second : Findings}
    (same : first.SameKnowledge second)
    {assertion other : SpecAssertion}
    (sameId : other.id = assertion.id) :
    (review coverage first assertion).SameKnowledge (review otherCoverage second other) := by
  obtain ⟨outcomes_eq, warnings_eq, failures_eq⟩ := same
  have outcome_eq : second.outcome? assertion.id = first.outcome? assertion.id := by
    rw [Findings.outcome?, outcomes_eq, Findings.outcome?]
  constructor
  · simp only [review, sameId, outcome_eq, outcomes_eq]
  · rw [warnings_review, warnings_review, sameId, outcome_eq, warnings_eq]
  · exact failures_eq

theorem sameKnowledge_foldl_review
    (coverage otherCoverage : Coverage)
    {first second : Findings}
    (same : first.SameKnowledge second)
    {assertions others : List SpecAssertion}
    (sameIds : others.map SpecAssertion.id = assertions.map SpecAssertion.id) :
    (assertions.foldl (review coverage) first).SameKnowledge
      (others.foldl (review otherCoverage) second) := by
  induction assertions generalizing others first second with
  | nil =>
      rw [List.map_nil, List.map_eq_nil_iff] at sameIds
      subst sameIds
      exact same
  | cons assertion assertions inductionHypothesis =>
      obtain ⟨other, rest, rfl, sameFirst, sameRest⟩ := List.map_eq_cons_iff.1 sameIds
      exact inductionHypothesis
        (sameKnowledge_review coverage otherCoverage same sameFirst) sameRest

variable {annotator : Annotator}

/-- The same is seen in the units of two walks, whatever the keywords are. -/
theorem map_unlabelled_flatMap_sightings
    {units others : List ProseUnit}
    (sameUnits : List.Forall₂ (SameUnit annotator.anchorClass) units others)
    {candidates otherCandidates : List (SpecAssertion × Pattern)}
    (sameCandidates : List.Forall₂ SameCandidate candidates otherCandidates) :
    (others.flatMap (ProseUnit.sightings annotator.anchorClass otherCandidates)).map
        Sighting.unlabelled =
      (units.flatMap (ProseUnit.sightings annotator.anchorClass candidates)).map
        Sighting.unlabelled := by
  induction sameUnits with
  | nil => rfl
  | cons sameUnit _ inductionHypothesis =>
      have sameSightings :=
        ProseUnit.map_unlabelled_sightingsFrom sameUnit (Eq.refl ([].map _)) sameCandidates
      rw [List.flatMap_cons, List.flatMap_cons, List.map_append, List.map_append,
        inductionHypothesis]
      congr 1

/-- Walks over the same units with assertions that differ in keywords alone come to know the
same. -/
theorem sameKnowledge_annotate
    (coverage otherCoverage : Coverage)
    (document : Document)
    {assertions others : List SpecAssertion}
    (same : others.map SpecAssertion.unlabelled = assertions.map SpecAssertion.unlabelled)
    (sameUnits : List.Forall₂ (SameUnit annotator.anchorClass)
      (annotator.visits coverage document assertions)
      (annotator.visits otherCoverage document others)) :
    (annotator.annotate document assertions coverage).2.SameKnowledge
      (annotator.annotate document others otherCoverage).2 := by
  have sameIds : others.map SpecAssertion.id = assertions.map SpecAssertion.id := by
    simpa [Function.comp_def, SpecAssertion.unlabelled] using
      congrArg (List.map SpecAssertion.id) same
  have sameSightings := map_unlabelled_flatMap_sightings sameUnits (forall₂_candidates same)
  rw [annotate_snd, annotate_snd]
  apply sameKnowledge_foldl_review coverage otherCoverage _ sameIds
  have sameNotes :
      (((annotator.visits otherCoverage document others).flatMap
          (ProseUnit.sightings annotator.anchorClass (candidates others))).foldl Findings.note
          { failures := failures others }) =
        (((annotator.visits coverage document assertions).flatMap
          (ProseUnit.sightings annotator.anchorClass (candidates assertions))).foldl Findings.note
          { failures := failures assertions }) := by
    rw [← Findings.foldl_note_map_unlabelled, sameSightings, Findings.foldl_note_map_unlabelled,
      failures_eq same]
  rw [noteAll, noteAll, sameNotes]
  exact Findings.sameKnowledge_addDivisions _ _ _

/-- Assertions that differ in keywords alone get their anchors at the same offsets. -/
theorem plansAgree_of_unlabelled
    (annotator : Annotator)
    (coverage otherCoverage : Coverage)
    {assertions others : List SpecAssertion}
    (same : others.map SpecAssertion.unlabelled = assertions.map SpecAssertion.unlabelled) :
    PlansAgree annotator.anchorClass
      (fun planned other =>
        other.id = planned.id ∧
          IsAnchorFor annotator coverage assertions
            (annotator.anchor coverage planned.id planned.keyword) ∧
          IsAnchorFor annotator otherCoverage others
            (annotator.anchor otherCoverage other.id other.keyword))
      assertions others := by
  intro before otherBefore node sameTexts plan otherPlan
  have samePlans : otherPlan.map Planned.unlabelled = plan.map Planned.unlabelled := by
    have sameUnit : SameUnit annotator.anchorClass
        (ProseUnit.ofNode annotator.anchorClass before node)
        (ProseUnit.ofNode annotator.anchorClass otherBefore node) :=
      ⟨before, otherBefore, node, rfl, rfl, sameTexts⟩
    simp only [plan, otherPlan, ProseUnit.plan, map_unlabelled_plannedOf]
    exact congrArg plannedOf
      (ProseUnit.map_unlabelled_sightingsFrom sameUnit (Eq.refl ([].map _))
        (forall₂_candidates same))
  constructor
  · have sameOffsets : otherPlan.map Planned.offset = plan.map Planned.offset := by
      simpa [Function.comp_def, Planned.unlabelled] using
        congrArg (List.map Planned.offset) samePlans
    rw [sameOffsets]
  · intro planned isPlanned other isOther sameOffset
    refine ⟨?_, isAnchorFor_of_mem_plan annotator coverage isPlanned,
      isAnchorFor_of_mem_plan annotator otherCoverage isOther⟩
    have otherListed : other.unlabelled ∈ plan.map Planned.unlabelled :=
      samePlans ▸ List.mem_map_of_mem isOther
    obtain ⟨found, isFound, found_eq⟩ := List.mem_map.1 otherListed
    obtain ⟨foundOffset, foundId, _⟩ := Planned.mk.inj found_eq
    -- the plan has one anchor at each offset
    have found_is : found = planned :=
      List.inj_on_of_nodup_map (ProseUnit.nodup_map_offset_plan _) isFound isPlanned
        (foundOffset.trans sameOffset)
    rw [← foundId, found_is]

/-- Neither claims nor keywords have a say in what is found and where anchors come in: but for the
classes and the insides of the anchors that came in, the annotated documents are the same. -/
theorem annotate_unlabelled
    (annotator : Annotator)
    (isToken : Text.IsToken annotator.anchorClass)
    (document : Document)
    (coverage otherCoverage : Coverage)
    {assertions others : List SpecAssertion}
    (same : others.map SpecAssertion.unlabelled = assertions.map SpecAssertion.unlabelled) :
    let first := annotator.annotate document assertions coverage
    let second := annotator.annotate document others otherCoverage
    second.2.outcomes = first.2.outcomes ∧ second.2.warnings = first.2.warnings ∧
      second.2.failures = first.2.failures ∧
      ∃ bare common, TextEquivalent bare [document.root.toNode] ∧
        Exchanged (IsAnchorFor annotator coverage assertions) Node.blank bare
          [first.1.root.toNode] common ∧
        Exchanged (IsAnchorFor annotator otherCoverage others) Node.blank bare
          [second.1.root.toNode] common := by
  intro first second
  obtain ⟨sameUnits, bare, equivalent, paired⟩ :=
    exists_paired_annotate isToken coverage otherCoverage
      (plansAgree_of_unlabelled annotator coverage otherCoverage same) document
  obtain ⟨outcomes_eq, warnings_eq, failures_eq⟩ :=
    sameKnowledge_annotate coverage otherCoverage document same sameUnits
  have exchanged :
      ∃ common,
        Exchanged (IsAnchorFor annotator coverage assertions) Node.blank bare
          [first.1.root.toNode] common ∧
        Exchanged (IsAnchorFor annotator otherCoverage others) Node.blank bare
          [second.1.root.toNode] common := by
    refine paired.exists_exchanged ?_
    rintro _ _ ⟨planned, other, ⟨sameId, ofFirst, ofSecond⟩, rfl, rfl⟩
    refine ⟨ofFirst, ofSecond, ?_⟩
    simp [anchor, Node.blank, Tag.setAttribute, Tag.setIn, sameId]
  obtain ⟨common, ofFirst, ofSecond⟩ := exchanged
  exact ⟨outcomes_eq, warnings_eq, failures_eq, bare, common, equivalent, ofFirst, ofSecond⟩

/-- A claim and a keyword show in the anchor and in what is unclaimed. -/
theorem annotate_unlabelled_claimed :
    let annotator : Annotator := {}
    let document : Document :=
      ⟨{ name := "html" }, [.element { name := "body" } [.text "It must draw."]]⟩
    let plain : SpecAssertion := { id := "draw", text := "must<^> draw" }
    let softer : SpecAssertion := { plain with keyword := some .should }
    let claimed : Coverage := Coverage.claim {} "draw" "lines"
    let first := annotator.annotate document [plain] {}
    let second := annotator.annotate document [softer] claimed
    Text.IsToken annotator.anchorClass ∧
      [softer].map SpecAssertion.unlabelled = [plain].map SpecAssertion.unlabelled ∧
      (first.2.unclaimed = ["draw"] ∧ second.2.unclaimed = []) ∧
      second.2.outcomes = first.2.outcomes ∧
      ∃ bare common, TextEquivalent bare [document.root.toNode] ∧
        Exchanged (IsAnchorFor annotator {} [plain]) Node.blank bare
          [first.1.root.toNode] common ∧
        Exchanged (IsAnchorFor annotator claimed [softer]) Node.blank bare
          [second.1.root.toNode] common := by
  intro annotator document plain softer claimed first second
  have isToken : Text.IsToken annotator.anchorClass := by decide
  have same : [softer].map SpecAssertion.unlabelled = [plain].map SpecAssertion.unlabelled := rfl
  have unclaimed : first.2.unclaimed = ["draw"] ∧ second.2.unclaimed = [] := by
    simp only [first, second, unclaimed_annotate]
    decide
  obtain ⟨outcomes_eq, _, _, exchanged⟩ :=
    annotate_unlabelled annotator isToken document {} claimed same
  exact ⟨isToken, same, unclaimed, outcomes_eq, exchanged⟩

end Annotator

end CrossReference
end Conformance
