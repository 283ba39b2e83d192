import Conformance.Proofs.CrossReference.Insertion
import Conformance.Proofs.Prose.Offset
import Mathlib.Data.List.Induction

/-!
# Sightings

A sighting is an assertion that is accepted in a unit, together with what stands at its place.  The
sightings of a unit do not depend on what is known from earlier units; the plan consists of the
sightings at a free place, and what is known changes by noting one sighting after the other.

An anchor is planned for an offset exactly if no anchor stands there and some assertion is accepted
there; it is planned for the first such assertion.
-/

namespace Conformance
namespace CrossReference

open Markup
open Prose (Pattern)

/-- An assertion that is accepted in a unit. -/
structure Sighting extends Planned where
  /-- What stands at the place. -/
  place : Place
deriving DecidableEq, Inhabited, Repr

/-- Whether nothing stands at the place. -/
def Sighting.isFree (sighting : Sighting) : Bool :=
  decide (sighting.place = .free)

/-- The anchors that are planned on account of sightings. -/
def plannedOf (sightings : List Sighting) : List Planned :=
  (sightings.filter Sighting.isFree).map Sighting.toPlanned

@[simp]
theorem plannedOf_nil : plannedOf [] = [] :=
  rfl

theorem plannedOf_append (earlier later : List Sighting) :
    plannedOf (earlier ++ later) = plannedOf earlier ++ plannedOf later := by
  simp [plannedOf]

theorem plannedOf_singleton (sighting : Sighting) :
    plannedOf [sighting] = if sighting.place = .free then [sighting.toPlanned] else [] := by
  by_cases isFree : sighting.place = .free <;> simp [plannedOf, Sighting.isFree, isFree]

namespace ProseUnit

/-- What is seen of one assertion in a unit for which some anchors are planned already. -/
def sighting?
    (anchorClass : String)
    (unit : ProseUnit)
    (plan : List Planned)
    (candidate : SpecAssertion × Pattern) :
    Option Sighting :=
  (unit.acceptedAt? anchorClass candidate.1 candidate.2).map fun offset =>
    { offset := offset
      id := candidate.1.id
      keyword := candidate.2.keyword
      place := unit.place plan candidate.1.id offset }

/-- What is seen of some assertions, one after the other. -/
def sightingsFrom
    (anchorClass : String)
    (unit : ProseUnit)
    (plan : List Planned) :
    List (SpecAssertion × Pattern) → List Sighting
  | [] => []
  | candidate :: rest =>
      let seen := (unit.sighting? anchorClass plan candidate).toList
      seen ++ sightingsFrom anchorClass unit (plan ++ plannedOf seen) rest

/-- What is seen of all assertions in a unit. -/
def sightings
    (anchorClass : String)
    (candidates : List (SpecAssertion × Pattern))
    (unit : ProseUnit) :
    List Sighting :=
  unit.sightingsFrom anchorClass [] candidates

/-- The anchors that are planned for a unit. -/
def plan
    (anchorClass : String)
    (candidates : List (SpecAssertion × Pattern))
    (unit : ProseUnit) :
    List Planned :=
  plannedOf (unit.sightings anchorClass candidates)

end ProseUnit

namespace Findings

/-- What is known after one more sighting. -/
def note (findings : Findings) (sighting : Sighting) : Findings :=
  let seen := findings.outcomes.contains sighting.id
  let again := if seen then [Warning.matchedMultiple sighting.id none] else []
  let conflict :=
    match sighting.place with
    | .taken (some owner) => [Warning.matchedMultiple sighting.id (some owner)]
    | _ => []
  let outcome : Outcome :=
    if seen then .matchedMultiple
    else if sighting.place = .free then .annotated
    else .located
  { findings with
    outcomes := findings.outcomes.insert sighting.id outcome
    warnings := findings.warnings ++ again ++ conflict }

/-- What is known when further text nodes were divided. -/
def addDivisions (findings : Findings) (divisions : List Division) : Findings :=
  { findings with divisions := findings.divisions ++ divisions }

@[simp]
theorem addDivisions_addDivisions (findings : Findings) (first second : List Division) :
    (findings.addDivisions first).addDivisions second =
      findings.addDivisions (first ++ second) := by
  simp [addDivisions]

/-- Divisions and sightings do not depend on one another. -/
theorem foldl_note_addDivisions
    (findings : Findings)
    (sightings : List Sighting)
    (divisions : List Division) :
    sightings.foldl note (findings.addDivisions divisions) =
      (sightings.foldl note findings).addDivisions divisions := by
  induction sightings generalizing findings with
  | nil => rfl
  | cons sighting sightings inductionHypothesis =>
      exact inductionHypothesis (findings.note sighting)

end Findings

/-- Planning a unit notes its sightings and plans an anchor for those at a free place. -/
theorem foldl_step_eq
    (anchorClass : String)
    (unit : ProseUnit)
    (candidates : List (SpecAssertion × Pattern))
    (planning : Planning) :
    candidates.foldl (Planning.step anchorClass unit) planning =
      { plan :=
          planning.plan ++ plannedOf (unit.sightingsFrom anchorClass planning.plan candidates)
        findings :=
          (unit.sightingsFrom anchorClass planning.plan candidates).foldl
            Findings.note planning.findings } := by
  induction candidates generalizing planning with
  | nil => simp [ProseUnit.sightingsFrom]
  | cons candidate candidates inductionHypothesis =>
      rw [List.foldl_cons, inductionHypothesis, ProseUnit.sightingsFrom]
      cases accepted : unit.acceptedAt? anchorClass candidate.1 candidate.2 with
      | none => simp [Planning.step, ProseUnit.sighting?, accepted]
      | some offset =>
          have planned_eq :
              (Planning.step anchorClass unit planning candidate).plan =
                planning.plan ++
                  plannedOf (unit.sighting? anchorClass planning.plan candidate).toList := by
            by_cases isFree : unit.place planning.plan candidate.1.id offset = .free <;>
              simp [Planning.step, Planning.accept, ProseUnit.sighting?, accepted, plannedOf,
                Sighting.isFree, isFree]
          have findings_eq :
              (Planning.step anchorClass unit planning candidate).findings =
                (unit.sighting? anchorClass planning.plan candidate).toList.foldl
                  Findings.note planning.findings := by
            simp only [Planning.step, Planning.accept, ProseUnit.sighting?, accepted,
              Option.map_some, Option.toList_some, List.foldl_cons, List.foldl_nil]
            rfl
          rw [planned_eq, findings_eq, plannedOf_append, List.foldl_append, List.append_assoc]

namespace ProseUnit

variable {anchorClass : String} {unit : ProseUnit}

/-! ## Which anchors are planned -/

theorem sightingsFrom_append
    (plan : List Planned)
    (first second : List (SpecAssertion × Pattern)) :
    unit.sightingsFrom anchorClass plan (first ++ second) =
      unit.sightingsFrom anchorClass plan first ++
        unit.sightingsFrom anchorClass
          (plan ++ plannedOf (unit.sightingsFrom anchorClass plan first)) second := by
  induction first generalizing plan with
  | nil => simp [sightingsFrom]
  | cons candidate first inductionHypothesis =>
      simp only [List.cons_append, sightingsFrom, inductionHypothesis, plannedOf_append,
        List.append_assoc]

theorem sightings_append
    (earlier later : List (SpecAssertion × Pattern)) :
    unit.sightings anchorClass (earlier ++ later) =
      unit.sightings anchorClass earlier ++
        unit.sightingsFrom anchorClass (unit.plan anchorClass earlier) later := by
  rw [sightings, sightingsFrom_append, List.nil_append]
  rfl

theorem plan_append_of_none
    {candidate : SpecAssertion × Pattern}
    (rejected : unit.acceptedAt? anchorClass candidate.1 candidate.2 = none)
    (earlier : List (SpecAssertion × Pattern)) :
    unit.plan anchorClass (earlier ++ [candidate]) = unit.plan anchorClass earlier := by
  simp [plan, sightings_append, sightingsFrom, sighting?, rejected]

/-- An assertion that is accepted where nothing stands gets an anchor. -/
theorem plan_append_of_some
    {candidate : SpecAssertion × Pattern}
    {offset : Nat}
    (accepted : unit.acceptedAt? anchorClass candidate.1 candidate.2 = some offset)
    (earlier : List (SpecAssertion × Pattern)) :
    unit.plan anchorClass (earlier ++ [candidate]) =
      unit.plan anchorClass earlier ++
        if unit.place (unit.plan anchorClass earlier) candidate.1.id offset = .free then
          [⟨offset, candidate.1.id, candidate.2.keyword⟩]
        else [] := by
  rw [plan, sightings_append, plannedOf_append]
  simp only [sightingsFrom, sighting?, accepted, Option.map_some, Option.toList_some,
    List.append_nil, plannedOf_singleton]
  rfl

/-- A place is free if neither a plan nor the unit has an anchor there. -/
theorem place_eq_free_iff (plan : List Planned) (id : String) (offset : Nat) :
    unit.place plan id offset = .free ↔
      plan.find? (fun planned => planned.offset == offset) = none ∧
        unit.index.anchorAt? offset = none := by
  unfold place
  cases plan.find? fun planned => planned.offset == offset with
  | some planned => simp
  | none =>
      cases unit.index.anchorAt? offset with
      | none => simp
      | some site => by_cases own : site.assertion = some id <;> simp [own]

/-- For an offset at which no anchor stands, an anchor of the first assertion that is accepted
there is planned. -/
theorem find?_plan
    (candidates : List (SpecAssertion × Pattern))
    (offset : Nat) :
    (unit.plan anchorClass candidates).find? (fun planned => planned.offset == offset) =
      if (unit.index.anchorAt? offset).isSome then none
      else
        (candidates.find? fun candidate =>
          unit.acceptedAt? anchorClass candidate.1 candidate.2 == some offset).map
            fun candidate => ⟨offset, candidate.1.id, candidate.2.keyword⟩ := by
  induction candidates using List.reverseRecOn with
  | nil => simp [plan, sightings, sightingsFrom]
  | append_singleton earlier candidate inductionHypothesis =>
      cases accepted : unit.acceptedAt? anchorClass candidate.1 candidate.2 with
      | none =>
          rw [plan_append_of_none accepted, inductionHypothesis, List.find?_append]
          simp [accepted]
      | some found =>
          rw [plan_append_of_some accepted, List.find?_append, List.find?_append,
            inductionHypothesis]
          by_cases elsewhere : found = offset
          · subst elsewhere
            simp only [place_eq_free_iff, inductionHypothesis]
            cases standing : unit.index.anchorAt? found with
            | some site => simp
            | none =>
                cases earlierOne :
                    earlier.find? fun candidate =>
                      unit.acceptedAt? anchorClass candidate.1 candidate.2 == some found <;>
                  simp [accepted]
          · have notThere (isFree : Prop) [Decidable isFree] :
                (if isFree then
                  [Planned.mk found candidate.1.id candidate.2.keyword]
                else []).find? (fun planned => planned.offset == offset) = none := by
              by_cases holds : isFree <;> simp [holds, elsewhere]
            simp [notThere, accepted, elsewhere]

/-- What stands at an offset: an anchor of the unit, or else one that is planned for the first
assertion that is accepted there. -/
theorem place_plan
    (candidates : List (SpecAssertion × Pattern))
    (id : String)
    (offset : Nat) :
    unit.place (unit.plan anchorClass candidates) id offset =
      match unit.index.anchorAt? offset with
      | some site => if site.assertion = some id then .own else .taken site.assertion
      | none =>
          match candidates.find? fun candidate =>
            unit.acceptedAt? anchorClass candidate.1 candidate.2 == some offset with
          | some candidate => .taken (some candidate.1.id)
          | none => .free := by
  rw [place, find?_plan]
  cases unit.index.anchorAt? offset with
  | some site => simp
  | none =>
      simp only [Option.isSome_none, Bool.false_eq_true, if_false]
      cases candidates.find? _ <;> rfl

/-- No anchor is planned without an assertion that is accepted at its offset, or where an anchor
stands. -/
theorem exists_candidate_of_mem_plan
    {candidates : List (SpecAssertion × Pattern)}
    {planned : Planned}
    (member : planned ∈ unit.plan anchorClass candidates) :
    unit.index.anchorAt? planned.offset = none ∧
      ∃ candidate ∈ candidates,
        unit.acceptedAt? anchorClass candidate.1 candidate.2 = some planned.offset := by
  have present :
      (unit.plan anchorClass candidates).find? (fun other => other.offset == planned.offset) ≠
        none := by
    intro absent
    exact List.find?_eq_none.1 absent planned member (by simp)
  rw [find?_plan] at present
  cases standing : unit.index.anchorAt? planned.offset with
  | some site => simp [standing] at present
  | none =>
      refine ⟨rfl, ?_⟩
      simpa [standing] using present

/-- A planned anchor is that of an assertion that is accepted at its offset. -/
theorem exists_eq_of_mem_plan
    {candidates : List (SpecAssertion × Pattern)}
    {planned : Planned}
    (member : planned ∈ unit.plan anchorClass candidates) :
    ∃ candidate ∈ candidates,
      unit.acceptedAt? anchorClass candidate.1 candidate.2 = some planned.offset ∧
        planned = ⟨planned.offset, candidate.1.id, candidate.2.keyword⟩ := by
  induction candidates using List.reverseRecOn with
  | nil => cases member
  | append_singleton earlier candidate inductionHypothesis =>
      have ofEarlier (isEarlier : planned ∈ unit.plan anchorClass earlier) :
          ∃ other ∈ earlier ++ [candidate],
            unit.acceptedAt? anchorClass other.1 other.2 = some planned.offset ∧
              planned = ⟨planned.offset, other.1.id, other.2.keyword⟩ := by
        obtain ⟨other, isOther, accepted⟩ := inductionHypothesis isEarlier
        exact ⟨other, List.mem_append_left _ isOther, accepted⟩
      cases accepted : unit.acceptedAt? anchorClass candidate.1 candidate.2 with
      | none =>
          rw [plan_append_of_none accepted] at member
          exact ofEarlier member
      | some offset =>
          rw [plan_append_of_some accepted] at member
          rcases List.mem_append.1 member with isEarlier | isLast
          · exact ofEarlier isEarlier
          · split at isLast
            · obtain rfl := List.mem_singleton.1 isLast
              exact ⟨candidate, List.mem_append_right _ List.mem_cons_self, accepted, rfl⟩
            · cases isLast

/-- Where an assertion is accepted, an anchor stands or is planned. -/
theorem exists_mem_plan
    {candidates : List (SpecAssertion × Pattern)}
    {candidate : SpecAssertion × Pattern}
    (member : candidate ∈ candidates)
    {offset : Nat}
    (accepted : unit.acceptedAt? anchorClass candidate.1 candidate.2 = some offset)
    (absent : unit.index.anchorAt? offset = none) :
    ∃ planned ∈ unit.plan anchorClass candidates, planned.offset = offset := by
  have present :
      ((unit.plan anchorClass candidates).find? fun planned =>
        planned.offset == offset).isSome := by
    rw [find?_plan, absent]
    simp only [Option.isSome_none, Bool.false_eq_true, if_false, Option.isSome_map,
      List.find?_isSome, beq_iff_eq]
    exact ⟨candidate, member, accepted⟩
  simpa using present

/-- The planned offsets are distinct. -/
theorem nodup_map_offset_plan (candidates : List (SpecAssertion × Pattern)) :
    ((unit.plan anchorClass candidates).map Planned.offset).Nodup := by
  induction candidates using List.reverseRecOn with
  | nil => simp [plan, sightings, sightingsFrom]
  | append_singleton earlier candidate inductionHypothesis =>
      cases accepted : unit.acceptedAt? anchorClass candidate.1 candidate.2 with
      | none =>
          rw [plan_append_of_none accepted]
          exact inductionHypothesis
      | some offset =>
          rw [plan_append_of_some accepted]
          split
          · next isFree =>
              have absent := ((unit.place_eq_free_iff _ _ _).1 isFree).1
              rw [List.map_append, List.nodup_append]
              refine ⟨inductionHypothesis, by simp, ?_⟩
              rintro _ member _ isLast rfl
              obtain ⟨planned, plannedBefore, offset_eq⟩ := List.mem_map.1 member
              have notThere := List.find?_eq_none.1 absent planned plannedBefore
              simp_all
          · simpa using inductionHypothesis

/-- What is accepted in a unit is accepted at a boundary of its text, which is not without text
nodes. -/
theorem boundary_of_acceptedAt?_eq_some
    {before : List Node}
    {node : Node}
    {assertion : SpecAssertion}
    {pattern : Pattern}
    {offset : Nat}
    (accepted :
      (ofNode anchorClass before node).acceptedAt? anchorClass assertion pattern = some offset) :
    Text.isBoundary offset (proseOf (marks anchorClass [node])) = true ∧
      offset ≤ Text.byteSize (proseOf (marks anchorClass [node])) ∧
      (marks anchorClass [node]).any Piece.isText = true := by
  obtain ⟨found, conditions⟩ := Option.filter_eq_some_iff.1 accepted
  rw [← TextIndex.toList_text_ofNodes]
  refine ⟨Prose.isBoundary_of_anchorOffset?_eq_some found, Prose.anchorOffset?_le found, ?_⟩
  rw [← TextIndex.isSome_locate?_ofNodes anchorClass [node] offset]
  exact (Bool.and_eq_true_iff.1 conditions).1

/-- An anchor is planned for a boundary of the text of a unit that is not without text nodes. -/
theorem boundary_of_mem_plan
    {before : List Node}
    {node : Node}
    {candidates : List (SpecAssertion × Pattern)}
    {planned : Planned}
    (member : planned ∈ (ofNode anchorClass before node).plan anchorClass candidates) :
    Text.isBoundary planned.offset (proseOf (marks anchorClass [node])) = true ∧
      planned.offset ≤ Text.byteSize (proseOf (marks anchorClass [node])) ∧
      (marks anchorClass [node]).any Piece.isText = true := by
  obtain ⟨_, candidate, _, accepted⟩ := exists_candidate_of_mem_plan member
  exact boundary_of_acceptedAt?_eq_some accepted

/-- The anchors that are planned for a unit can be put into it. -/
theorem ready_plan
    (anchorClass : String)
    (candidates : List (SpecAssertion × Pattern))
    (before : List Node)
    (node : Node) :
    Ready anchorClass (inOrder ((ofNode anchorClass before node).plan anchorClass candidates))
      [node] where
  increasing := pairwise_inOrder (nodup_map_offset_plan candidates)
  bounded planned member :=
    (boundary_of_mem_plan ((inOrder_perm _).mem_iff.1 member)).2.1
  holdsText nonempty := by
    obtain ⟨planned, member⟩ := List.exists_mem_of_ne_nil _ nonempty
    exact (boundary_of_mem_plan ((inOrder_perm _).mem_iff.1 member)).2.2

end ProseUnit

namespace Annotator

variable
  (annotator : Annotator)
  (coverage : Coverage)
  (candidates : List (SpecAssertion × Pattern))

/-- The insertion of the anchors that are planned for a unit. -/
def insertionFor (unit : ProseUnit) : Insertion :=
  annotator.putAll coverage (unit.plan annotator.anchorClass candidates) unit.node

/-- The nodes that stand for a unit once it is annotated. -/
def standIns (unit : ProseUnit) : List Node :=
  (annotator.insertionFor coverage candidates unit).nodes

/-- Annotating a unit puts its stand-ins in its place and notes its sightings. -/
theorem annotateUnit_eq (before : List Node) (node : Node) (findings : Findings) :
    let unit := ProseUnit.ofNode annotator.anchorClass before node
    annotator.annotateUnit coverage candidates before node findings =
      (annotator.standIns coverage candidates unit,
        ((unit.sightings annotator.anchorClass candidates).foldl Findings.note
          findings).addDivisions
          (annotator.insertionFor coverage candidates unit).divisions) := by
  simp only [annotateUnit, foldl_step_eq, List.nil_append]
  rfl

/-- The stand-ins of a unit are the unit with all planned anchors inserted. -/
theorem insertedAll_standIns (before : List Node) (node : Node) :
    let unit := ProseUnit.ofNode annotator.anchorClass before node
    ∃ sorted, sorted.Perm (unit.plan annotator.anchorClass candidates) ∧
      InsertedAll annotator coverage sorted [node]
        (annotator.standIns coverage candidates unit) :=
  ⟨_, inOrder_perm _, annotator.insertedAll_foldl_put coverage { nodes := [node] }
    (ProseUnit.ready_plan annotator.anchorClass candidates before node)⟩

/-- Beside the anchors of a unit, its stand-ins have one anchor for each that was planned. -/
theorem anchors_standIns_perm
    (isToken : Text.IsToken annotator.anchorClass)
    (before : List Node)
    (node : Node) :
    let unit := ProseUnit.ofNode annotator.anchorClass before node
    (anchorsFrom 0
        (marks annotator.anchorClass (annotator.standIns coverage candidates unit))).Perm
      ((unit.plan annotator.anchorClass candidates).map Planned.site ++
        anchorsFrom 0 (marks annotator.anchorClass [node])) := by
  intro unit
  obtain ⟨sorted, isPerm, inserted⟩ :=
    annotator.insertedAll_standIns coverage candidates before node
  refine (inserted.anchors_perm isToken ?_).trans ((isPerm.map Planned.site).append_right _)
  intro planned member
  exact (ProseUnit.boundary_of_mem_plan (isPerm.mem_iff.1 member)).1

end Annotator

end CrossReference
end Conformance
