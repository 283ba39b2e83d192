import Conformance.Proofs.CrossReference.Independence
import Conformance.Proofs.CrossReference.Parallel

/-!
# The order of the assertions

In whatever order assertions are looked for, the same ones are found, as often, and anchors come to
the same places.  Which of several assertions that are accepted at one offset gets the anchor
depends on the order, and with it whether an assertion is annotated or located.
-/

namespace Conformance
namespace CrossReference

open Markup
open Prose (Pattern)

namespace ProseUnit

variable {anchorClass : String}

/-- Anchors are planned for the offsets at which some assertion is accepted and no anchor stands. -/
theorem mem_map_offset_plan_iff
    {unit : ProseUnit}
    {assertions : List SpecAssertion}
    {offset : Nat} :
    offset ∈ (unit.plan anchorClass (Annotator.candidates assertions)).map Planned.offset ↔
      unit.index.anchorAt? offset = none ∧
        ∃ assertion ∈ assertions, unit.acceptance? anchorClass assertion = some offset := by
  rw [List.mem_map]
  constructor
  · rintro ⟨planned, member, rfl⟩
    obtain ⟨absent, candidate, isCandidate, acceptedAt⟩ := exists_candidate_of_mem_plan member
    obtain ⟨listed, compiles⟩ := Annotator.mem_candidates_iff.1 isCandidate
    exact ⟨absent, candidate.1, listed,
      acceptance?_eq_some_iff.2 ⟨candidate.2, compiles, acceptedAt⟩⟩
  · rintro ⟨absent, assertion, listed, accepted⟩
    obtain ⟨pattern, compiles, acceptedAt⟩ := acceptance?_eq_some_iff.1 accepted
    have isCandidate : (assertion, pattern) ∈ Annotator.candidates assertions :=
      Annotator.mem_candidates_iff.2 ⟨listed, compiles⟩
    exact exists_mem_plan isCandidate acceptedAt absent

theorem accepts_eq_of_sameUnit
    {first second : ProseUnit}
    (same : SameUnit anchorClass first second)
    (assertion : SpecAssertion) :
    second.accepts anchorClass assertion = first.accepts anchorClass assertion := by
  obtain ⟨before, otherBefore, node, rfl, rfl, sameTexts⟩ := same
  rw [accepts, accepts, acceptance?_congr sameTexts rfl rfl]

theorem countP_accepts_eq
    {units others : List ProseUnit}
    (same : List.Forall₂ (SameUnit anchorClass) units others)
    (assertion : SpecAssertion) :
    others.countP (fun unit => unit.accepts anchorClass assertion) =
      units.countP fun unit => unit.accepts anchorClass assertion := by
  induction same with
  | nil => rfl
  | cons here _ inductionHypothesis =>
      rw [List.countP_cons, List.countP_cons, accepts_eq_of_sameUnit here, inductionHypothesis]

end ProseUnit

namespace Annotator

variable {annotator : Annotator}

/-- However assertions are arranged, their plans agree. -/
theorem plansAgree_of_perm
    (annotator : Annotator)
    (coverage : Coverage)
    {assertions permuted : List SpecAssertion}
    (isPerm : permuted.Perm assertions) :
    PlansAgree annotator.anchorClass
      (fun planned other =>
        IsAnchorFor annotator coverage assertions
            (annotator.anchor coverage planned.id planned.keyword) ∧
          IsAnchorFor annotator coverage permuted
            (annotator.anchor coverage other.id other.keyword))
      assertions permuted := by
  intro before otherBefore node sameTexts plan otherPlan
  constructor
  · rw [List.perm_ext_iff_of_nodup (ProseUnit.nodup_map_offset_plan _)
      (ProseUnit.nodup_map_offset_plan _)]
    intro offset
    rw [ProseUnit.mem_map_offset_plan_iff, ProseUnit.mem_map_offset_plan_iff]
    simp only [isPerm.mem_iff, ProseUnit.acceptance?_congr sameTexts rfl rfl]
    rfl
  · intro planned isPlanned other isOther _
    exact ⟨isAnchorFor_of_mem_plan annotator coverage isPlanned,
      isAnchorFor_of_mem_plan annotator coverage isOther⟩

/-- An assertion is found in several places exactly if it is accepted in several visited units. -/
theorem outcome?_eq_matchedMultiple_iff
    (document : Document)
    {earlier later : List SpecAssertion}
    {assertion : SpecAssertion}
    (unique : ∀ other ∈ earlier ++ later, other.id ≠ assertion.id)
    (coverage : Coverage) :
    (annotator.annotate document (earlier ++ assertion :: later) coverage).2.outcome?
        assertion.id = some .matchedMultiple ↔
      2 ≤ (annotator.visits coverage document (earlier ++ assertion :: later)).countP
        fun unit => unit.accepts annotator.anchorClass assertion := by
  obtain ⟨outcome_eq, _⟩ := annotator.annotate_accounts document
    (earlier ++ assertion :: later) coverage (count_id_eq_one unique)
  rw [outcome_eq, Option.some_inj, getD_outcomeOf_eq_matchedMultiple_iff,
    annotator.length_placesOf_visits unique]

/-- An assertion is found exactly if it is accepted in some visited unit. -/
theorem isMatched_iff_countP
    (document : Document)
    {earlier later : List SpecAssertion}
    {assertion : SpecAssertion}
    (unique : ∀ other ∈ earlier ++ later, other.id ≠ assertion.id)
    (coverage : Coverage) :
    (annotator.annotate document (earlier ++ assertion :: later) coverage).2.isMatched
        assertion.id = true ↔
      0 < (annotator.visits coverage document (earlier ++ assertion :: later)).countP
        fun unit => unit.accepts annotator.anchorClass assertion := by
  rw [isMatched_annotate_iff annotator document unique, List.countP_pos_iff]

/-- Walks that visit the same units find the same assertions, as often. -/
theorem sameOutcomes_of_perm
    (document : Document)
    {assertions permuted : List SpecAssertion}
    (distinct : (assertions.map SpecAssertion.id).Nodup)
    (isPerm : permuted.Perm assertions)
    (coverage : Coverage)
    (sameUnits : List.Forall₂ (SameUnit annotator.anchorClass)
      (annotator.visits coverage document assertions)
      (annotator.visits coverage document permuted))
    (id : String) :
    let first := (annotator.annotate document assertions coverage).2
    let second := (annotator.annotate document permuted coverage).2
    (second.isMatched id = true ↔ first.isMatched id = true) ∧
      (second.outcome? id = some .matchedMultiple ↔ first.outcome? id = some .matchedMultiple) := by
  intro first second
  by_cases listed : id ∈ assertions.map SpecAssertion.id
  · obtain ⟨assertion, member, rfl⟩ := List.mem_map.1 listed
    have distinctPermuted : (permuted.map SpecAssertion.id).Nodup :=
      (isPerm.map SpecAssertion.id).nodup_iff.2 distinct
    obtain ⟨earlier, later, rfl⟩ := List.append_of_mem member
    obtain ⟨otherEarlier, otherLater, rfl⟩ := List.append_of_mem (isPerm.mem_iff.2 member)
    have unique := id_ne_of_nodup distinct
    have otherUnique := id_ne_of_nodup distinctPermuted
    have sameCount := ProseUnit.countP_accepts_eq sameUnits assertion
    simp only [first, second]
    rw [isMatched_iff_countP document unique, isMatched_iff_countP document otherUnique,
      outcome?_eq_matchedMultiple_iff document unique,
      outcome?_eq_matchedMultiple_iff document otherUnique, sameCount]
    exact ⟨.rfl, .rfl⟩
  · have otherwise : id ∉ permuted.map SpecAssertion.id := by
      rwa [(isPerm.map SpecAssertion.id).mem_iff]
    have firstNone := annotator.outcome?_annotate_eq_none document listed coverage
    have secondNone := annotator.outcome?_annotate_eq_none document otherwise coverage
    simp [first, second, Findings.isMatched, firstNone, secondNone]

/-- Arranging the assertions otherwise changes neither which of them are found, found in several
places or unclaimed, nor where anchors come in: with one node in place of all that came in, the
annotated documents are the same. -/
theorem annotate_perm
    (annotator : Annotator)
    (isToken : Text.IsToken annotator.anchorClass)
    (document : Document)
    (coverage : Coverage)
    {assertions permuted : List SpecAssertion}
    (distinct : (assertions.map SpecAssertion.id).Nodup)
    (isPerm : permuted.Perm assertions) :
    let first := annotator.annotate document assertions coverage
    let second := annotator.annotate document permuted coverage
    (∀ id, second.2.isMatched id = true ↔ first.2.isMatched id = true) ∧
      (∀ id, second.2.outcome? id = some .matchedMultiple ↔
        first.2.outcome? id = some .matchedMultiple) ∧
      second.2.unclaimed.Perm first.2.unclaimed ∧
      ∃ bare, TextEquivalent bare [document.root.toNode] ∧
        ∀ placeholder : Node, ∃ common,
          Exchanged (IsAnchorFor annotator coverage assertions) (fun _ => placeholder) bare
            [first.1.root.toNode] common ∧
          Exchanged (IsAnchorFor annotator coverage permuted) (fun _ => placeholder) bare
            [second.1.root.toNode] common := by
  intro first second
  obtain ⟨sameUnits, bare, equivalent, paired⟩ := exists_paired_annotate isToken coverage coverage
    (plansAgree_of_perm annotator coverage isPerm) document
  have sameOutcomes := sameOutcomes_of_perm document distinct isPerm coverage sameUnits
  refine ⟨fun id => (sameOutcomes id).1, fun id => (sameOutcomes id).2, ?_, bare, equivalent, ?_⟩
  · simp only [first, second, unclaimed_annotate]
    exact (isPerm.map SpecAssertion.id).filter _
  · intro placeholder
    refine paired.exists_exchanged ?_
    rintro _ _ ⟨planned, other, ⟨ofFirst, ofSecond⟩, rfl, rfl⟩
    exact ⟨ofFirst, ofSecond, rfl⟩

/-- Of two assertions that are accepted at one offset the first one gets the anchor; both are found
in either order. -/
theorem annotate_perm_shared :
    let annotator : Annotator := {}
    let paragraph : Node := .element { name := "p" } [.text "It must draw."]
    let document : Document :=
      ⟨{ name := "html" }, [.element { name := "body" } [.text "It must not.", paragraph]]⟩
    let draw : SpecAssertion := { id := "draw", text := "must<^> draw" }
    let must : SpecAssertion := { id := "must", text := "It must<^> d" }
    let first := annotator.annotate document [draw, must] {}
    let second := annotator.annotate document [must, draw] {}
    Text.IsToken annotator.anchorClass ∧ ([draw, must].map SpecAssertion.id).Nodup ∧
      [must, draw].Perm [draw, must] ∧
      (first.2.outcome? "draw" = some .annotated ∧ second.2.outcome? "draw" = some .located) ∧
      (∀ id, second.2.isMatched id = true ↔ first.2.isMatched id = true) ∧
      ∃ bare, TextEquivalent bare [document.root.toNode] ∧
        ∀ placeholder : Node, ∃ common,
          Exchanged (IsAnchorFor annotator {} [draw, must]) (fun _ => placeholder) bare
            [first.1.root.toNode] common ∧
          Exchanged (IsAnchorFor annotator {} [must, draw]) (fun _ => placeholder) bare
            [second.1.root.toNode] common := by
  intro annotator paragraph document draw must first second
  have isToken : Text.IsToken annotator.anchorClass := by decide
  have distinct : ([draw, must].map SpecAssertion.id).Nodup := by decide
  have isPerm : [must, draw].Perm [draw, must] := .swap draw must []
  obtain ⟨matched, _, _, exchanged⟩ := annotate_perm annotator isToken document {} distinct isPerm
  have outcomes :
      first.2.outcome? "draw" = some .annotated ∧ second.2.outcome? "draw" = some .located := by
    decide +kernel
  exact ⟨isToken, distinct, isPerm, outcomes, matched, exchanged⟩

end Annotator

end CrossReference
end Conformance
