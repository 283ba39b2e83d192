import Conformance.Proofs.CrossReference.Accounting
import Conformance.Proofs.CrossReference.Walk
import Conformance.Proofs.Text.Occurrence
import Mathlib.Data.List.GetD

/-!
# Acceptance

When an assertion is accepted in a unit, said without the order in which assertions are looked at:
its pattern compiles and is found, the unit holds a text node, and the back-reference accepts.
For an assertion whose id no other one has, the sightings of a unit are its acceptance there, and
the place depends on the earlier assertions alone.
-/

namespace Conformance
namespace CrossReference

open Markup
open Prose (Pattern)

namespace TextIndex

/-- An offset is located if there is a text node at all. -/
theorem isSome_locate? (index : TextIndex) (offset : Nat) :
    (index.locate? offset).isSome = !index.segments.isEmpty := by
  cases segments : index.segments with
  | nil => simp [locate?, segments]
  | cons segment rest =>
      cases first : (segment :: rest).find? fun segment => decide (offset < segment.finish) <;>
        simp [locate?, segments, first, List.getLast?_cons]

end TextIndex

/-- The texts of some nodes, one by one. -/
def proses (anchorClass : String) (nodes : List Node) : List (List Char) :=
  nodes.map fun node => proseOf (marks anchorClass [node])

theorem proses_append (anchorClass : String) (front back : List Node) :
    proses anchorClass (front ++ back) = proses anchorClass front ++ proses anchorClass back :=
  List.map_append

/-- The text of some nodes is that of one after the other. -/
theorem proseOf_marks_eq_flatten (anchorClass : String) (nodes : List Node) :
    proseOf (marks anchorClass nodes) = (proses anchorClass nodes).flatten := by
  induction nodes with
  | nil => rfl
  | cons node nodes inductionHypothesis =>
      rw [← List.singleton_append, marks_append, proseOf_append, inductionHypothesis]
      rfl

theorem isEmpty_segments_ofNodes (anchorClass : String) (nodes : List Node) :
    (TextIndex.ofNodes anchorClass nodes).segments.isEmpty =
      !(marks anchorClass nodes).any Piece.isText := by
  rw [← TextIndex.isSome_locate?_ofNodes anchorClass nodes 0, TextIndex.isSome_locate?,
    Bool.not_not]

namespace ProseUnit

/-- The text that a back-reference looks at: that of the sibling so many places before the unit, or
that of the first one if there are not so many. -/
def textBefore (anchorClass : String) (unit : ProseUnit) (distance : Nat) : List Char :=
  (proses anchorClass (unit.before ++ [unit.node])).getD
    (unit.before.length - min distance unit.before.length)
    (proseOf (marks anchorClass [unit.node]))

/-- A back-reference is met if its text occurs where it looks exactly if it is expected there. -/
def Meets (anchorClass : String) (unit : ProseUnit) (reference : BackReference) : Prop :=
  reference.text.toList <:+: unit.textBefore anchorClass reference.siblings ↔
    reference.expected = true

theorem meets_iff {anchorClass : String} {unit : ProseUnit} {reference : BackReference} :
    unit.Meets anchorClass reference ↔
      (Text.occursIn reference.text.toList (unit.textBefore anchorClass reference.siblings) ==
        reference.expected) = true := by
  rw [Meets, ← Text.occursIn_eq_true_iff, ← Bool.eq_iff_iff, beq_iff_eq]

instance (anchorClass : String) (unit : ProseUnit) (reference : BackReference) :
    Decidable (unit.Meets anchorClass reference) :=
  decidable_of_iff' _ meets_iff

/-- The offset at which an assertion is accepted in a unit: its pattern compiles and is found in the
text, the unit holds a text node, and the back-reference, if there is one, is met. -/
def acceptance?
    (anchorClass : String)
    (unit : ProseUnit)
    (assertion : SpecAssertion) :
    Option Nat :=
  (Pattern.ofAssertion assertion).toOption.bind fun pattern =>
    (pattern.anchorOffset? unit.index.text).filter fun _ =>
      !unit.index.segments.isEmpty &&
        assertion.previously.all fun reference => unit.Meets anchorClass reference

/-- Whether an assertion is accepted in a unit. -/
def accepts (anchorClass : String) (unit : ProseUnit) (assertion : SpecAssertion) : Bool :=
  (unit.acceptance? anchorClass assertion).isSome

/-- The assertion for which an anchor is planned at an offset when some assertions were looked at:
the first one that is accepted there, unless the unit has an anchor there already. -/
def planner?
    (anchorClass : String)
    (unit : ProseUnit)
    (assertions : List SpecAssertion)
    (offset : Nat) :
    Option SpecAssertion :=
  if (unit.index.anchorAt? offset).isSome then none
  else assertions.find? fun other => unit.acceptance? anchorClass other == some offset

/-- The other assertion that has the place at which an assertion is accepted. -/
def rival?
    (anchorClass : String)
    (unit : ProseUnit)
    (earlier : List SpecAssertion)
    (assertion : SpecAssertion) :
    Option String :=
  (unit.acceptance? anchorClass assertion).bind fun offset =>
    match unit.planner? anchorClass earlier offset with
    | some other => some other.id
    | none =>
        ((unit.index.anchorAt? offset).bind AnchorSite.assertion).filter fun owner =>
          owner != assertion.id

variable {anchorClass : String} {unit : ProseUnit}

theorem satisfies_eq_decide (anchorClass : String) (unit : ProseUnit) :
    unit.satisfies anchorClass = fun reference => decide (unit.Meets anchorClass reference) := by
  funext reference
  rw [Bool.eq_iff_iff, decide_eq_true_iff, meets_iff, satisfies, BackReference.accepts,
    TextIndex.toList_text_ofNodes, sibling, textBefore, proses,
    List.getD_map (f := fun node => proseOf (marks anchorClass [node]))]

theorem acceptance?_of_error
    {assertion : SpecAssertion}
    {error : Error}
    (malformed : Pattern.ofAssertion assertion = .error error) :
    unit.acceptance? anchorClass assertion = none := by
  rw [acceptance?, malformed]
  rfl

theorem acceptance?_of_ok
    {assertion : SpecAssertion}
    {pattern : Pattern}
    (compiles : Pattern.ofAssertion assertion = .ok pattern) :
    unit.acceptance? anchorClass assertion = unit.acceptedAt? anchorClass assertion pattern := by
  rw [acceptance?, compiles, acceptedAt?, satisfies_eq_decide]
  simp only [TextIndex.isSome_locate?]
  rfl

end ProseUnit

/-! ## What acceptance depends on -/

namespace ProseUnit

/-- Acceptance depends on the text of the unit and the texts of its siblings. -/
theorem acceptance?_congr
    {anchorClass : String}
    {before otherBefore : List Node}
    {node other : Node}
    (siblings : proses anchorClass before = proses anchorClass otherBefore)
    (same : proseOf (marks anchorClass [node]) = proseOf (marks anchorClass [other]))
    (holdsText :
      (marks anchorClass [node]).any Piece.isText = (marks anchorClass [other]).any Piece.isText)
    (assertion : SpecAssertion) :
    (ofNode anchorClass before node).acceptance? anchorClass assertion =
      (ofNode anchorClass otherBefore other).acceptance? anchorClass assertion := by
  have sameLength : before.length = otherBefore.length := by
    simpa [proses] using congrArg List.length siblings
  have sameSiblings :
      proses anchorClass (before ++ [node]) = proses anchorClass (otherBefore ++ [other]) := by
    unfold proses at siblings ⊢
    rw [List.map_append, List.map_append, siblings, List.map_singleton, List.map_singleton, same]
  have textBefore_eq (distance : Nat) :
      (ofNode anchorClass before node).textBefore anchorClass distance =
        (ofNode anchorClass otherBefore other).textBefore anchorClass distance := by
    simp only [textBefore, ofNode, sameSiblings, sameLength, same]
  have sameMeets (reference : BackReference) :
      (ofNode anchorClass before node).Meets anchorClass reference ↔
        (ofNode anchorClass otherBefore other).Meets anchorClass reference := by
    rw [Meets, Meets, textBefore_eq]
  have text_eq : (ofNode anchorClass before node).index.text =
      (ofNode anchorClass otherBefore other).index.text :=
    TextIndex.text_ofNodes_eq same
  have segments_eq : (ofNode anchorClass before node).index.segments.isEmpty =
      (ofNode anchorClass otherBefore other).index.segments.isEmpty := by
    rw [ofNode, ofNode, isEmpty_segments_ofNodes, isEmpty_segments_ofNodes, holdsText]
  simp only [acceptance?, text_eq, segments_eq, sameMeets]

/-- Nothing is accepted in a unit without a text node. -/
theorem acceptance?_eq_none_of_noText
    {anchorClass : String}
    {node : Node}
    (noText : (marks anchorClass [node]).any Piece.isText = false)
    (before : List Node)
    (assertion : SpecAssertion) :
    (ofNode anchorClass before node).acceptance? anchorClass assertion = none := by
  have noSegments : (ofNode anchorClass before node).index.segments.isEmpty = true := by
    rw [ofNode, isEmpty_segments_ofNodes, noText]
    rfl
  rw [acceptance?, noSegments, Option.bind_eq_none_iff]
  intro pattern _
  rw [Option.filter_eq_none_iff]
  simp

end ProseUnit

namespace Annotator

theorem candidates_append (first second : List SpecAssertion) :
    candidates (first ++ second) = candidates first ++ candidates second :=
  List.filterMap_append

theorem candidates_cons_of_error
    {assertion : SpecAssertion}
    {error : Error}
    (malformed : Pattern.ofAssertion assertion = .error error)
    (rest : List SpecAssertion) :
    candidates (assertion :: rest) = candidates rest := by
  simp [candidates, malformed]

theorem candidates_cons_of_ok
    {assertion : SpecAssertion}
    {pattern : Pattern}
    (compiles : Pattern.ofAssertion assertion = .ok pattern)
    (rest : List SpecAssertion) :
    candidates (assertion :: rest) = (assertion, pattern) :: candidates rest := by
  simp [candidates, compiles]

theorem mem_candidates_iff {assertions : List SpecAssertion} {candidate : SpecAssertion × Pattern} :
    candidate ∈ candidates assertions ↔
      candidate.1 ∈ assertions ∧ Pattern.ofAssertion candidate.1 = .ok candidate.2 := by
  rw [candidates, List.mem_filterMap]
  constructor
  · rintro ⟨assertion, member, found⟩
    split at found
    · next compiles =>
        cases found
        exact ⟨member, compiles⟩
    · cases found
  · rintro ⟨member, compiles⟩
    exact ⟨candidate.1, member, by rw [compiles]⟩

end Annotator

namespace ProseUnit

variable {anchorClass : String} {unit : ProseUnit}

/-- An assertion is accepted exactly if it is a candidate and its pattern is. -/
theorem acceptance?_eq_some_iff {assertion : SpecAssertion} {offset : Nat} :
    unit.acceptance? anchorClass assertion = some offset ↔
      ∃ pattern, Pattern.ofAssertion assertion = .ok pattern ∧
        unit.acceptedAt? anchorClass assertion pattern = some offset := by
  cases compiled : Pattern.ofAssertion assertion with
  | error error => simp [acceptance?_of_error compiled]
  | ok pattern => simp [acceptance?_of_ok compiled]

theorem find?_candidates (assertions : List SpecAssertion) (offset : Nat) :
    ((Annotator.candidates assertions).find? fun candidate =>
        unit.acceptedAt? anchorClass candidate.1 candidate.2 == some offset).map Prod.fst =
      assertions.find? fun assertion =>
        unit.acceptance? anchorClass assertion == some offset := by
  induction assertions with
  | nil => rfl
  | cons assertion assertions inductionHypothesis =>
      cases compiled : Pattern.ofAssertion assertion with
      | error error =>
          rw [Annotator.candidates_cons_of_error compiled, inductionHypothesis, List.find?_cons,
            acceptance?_of_error compiled]
          rfl
      | ok pattern =>
          rw [Annotator.candidates_cons_of_ok compiled, List.find?_cons, List.find?_cons,
            acceptance?_of_ok compiled]
          cases unit.acceptedAt? anchorClass assertion pattern == some offset with
          | true => rfl
          | false => exact inductionHypothesis

/-- What stands at an offset once some assertions were looked at. -/
theorem place_plan_candidates
    (assertions : List SpecAssertion)
    (id : String)
    (offset : Nat) :
    unit.place (unit.plan anchorClass (Annotator.candidates assertions)) id offset =
      match unit.planner? anchorClass assertions offset with
      | some other => .taken (some other.id)
      | none =>
          match unit.index.anchorAt? offset with
          | some site => if site.assertion = some id then .own else .taken site.assertion
          | none => .free := by
  rw [place_plan, planner?]
  cases unit.index.anchorAt? offset with
  | some site => rfl
  | none =>
      rw [← find?_candidates]
      cases (Annotator.candidates assertions).find? _ <;> rfl

/-- An assertion is accepted at the place of another one exactly if it has a rival. -/
theorem place_eq_taken_iff
    {earlier : List SpecAssertion}
    {assertion : SpecAssertion}
    {owner : String} :
    ((unit.acceptance? anchorClass assertion).map
        (unit.place (unit.plan anchorClass (Annotator.candidates earlier)) assertion.id)) =
        some (.taken (some owner)) ↔
      unit.rival? anchorClass earlier assertion = some owner := by
  rw [rival?]
  cases unit.acceptance? anchorClass assertion with
  | none => simp
  | some offset =>
      rw [Option.map_some, Option.bind_some, place_plan_candidates]
      cases unit.planner? anchorClass earlier offset with
      | some other => simp
      | none =>
          cases unit.index.anchorAt? offset with
          | none => simp
          | some site =>
              obtain ⟨position, named⟩ := site
              cases named with
              | none => simp
              | some name =>
                  by_cases own : name = assertion.id
                  · simp [own, Option.filter]
                  · simp [own, Option.filter]

theorem placesOf_sightingsFrom_eq_nil
    {id : String}
    {candidates : List (SpecAssertion × Pattern)}
    (absent : ∀ candidate ∈ candidates, candidate.1.id ≠ id)
    (plan : List Planned) :
    placesOf id (unit.sightingsFrom anchorClass plan candidates) = [] := by
  induction candidates generalizing plan with
  | nil => rfl
  | cons candidate candidates inductionHypothesis =>
      obtain ⟨different, absentRest⟩ := List.forall_mem_cons.1 absent
      rw [sightingsFrom, placesOf_append, inductionHypothesis absentRest, List.append_nil]
      cases accepted : unit.acceptedAt? anchorClass candidate.1 candidate.2 with
      | none => simp [sighting?, accepted]
      | some offset =>
          rw [sighting?, accepted]
          exact placesOf_singleton_other different

/-- The sightings of an assertion whose id no other one has. -/
theorem placesOf_sightings
    {earlier later : List SpecAssertion}
    {assertion : SpecAssertion}
    (unique : ∀ other ∈ earlier ++ later, other.id ≠ assertion.id) :
    placesOf assertion.id
        (unit.sightings anchorClass
          (Annotator.candidates (earlier ++ assertion :: later))) =
      ((unit.acceptance? anchorClass assertion).map
        (unit.place (unit.plan anchorClass (Annotator.candidates earlier))
          assertion.id)).toList := by
  have absentAmong (assertions : List SpecAssertion) (among : assertions ⊆ earlier ++ later) :
      ∀ candidate ∈ Annotator.candidates assertions, candidate.1.id ≠ assertion.id := by
    intro candidate member
    exact unique _ (among (Annotator.mem_candidates_iff.1 member).1)
  have noneEarlier := absentAmong earlier (List.subset_append_left earlier later)
  have noneLater := absentAmong later (List.subset_append_right earlier later)
  rw [Annotator.candidates_append, sightings_append, placesOf_append, sightings,
    placesOf_sightingsFrom_eq_nil noneEarlier, List.nil_append]
  cases compiled : Pattern.ofAssertion assertion with
  | error error =>
      rw [Annotator.candidates_cons_of_error compiled, acceptance?_of_error compiled,
        placesOf_sightingsFrom_eq_nil noneLater]
      rfl
  | ok pattern =>
      rw [Annotator.candidates_cons_of_ok compiled, acceptance?_of_ok compiled, sightingsFrom,
        placesOf_append, placesOf_sightingsFrom_eq_nil noneLater, List.append_nil]
      cases accepted : unit.acceptedAt? anchorClass assertion pattern with
      | none => simp [sighting?, accepted]
      | some offset =>
          rw [sighting?, accepted]
          exact placesOf_singleton_same _

end ProseUnit

end CrossReference
end Conformance
