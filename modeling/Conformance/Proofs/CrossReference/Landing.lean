import Conformance.CrossReference.Annotator
import Conformance.Proofs.CrossReference.Sightings

/-!
# Where anchors land

The anchors of a plan are put in one after the other, and the offsets of the plan are those of the
text before the first one was put in.  Every offset still falls between two characters of a text
node when its turn comes, so every planned anchor stands at its offset in the end.
-/

namespace Conformance
namespace CrossReference

open Markup
open Prose (Pattern)

/-- An offset of some nodes is reached: the path of the segment that it is located in leads to a
text node, and the position there falls between two characters. -/
def Reaches (anchorClass : String) (nodes : List Node) (offset : Nat) : Prop :=
  ∃ segment position content,
    (TextIndex.ofNodes anchorClass nodes).locate? offset = some (segment, position) ∧
      Node.at? segment.path nodes = some (.text content) ∧
      Text.isBoundary position content.toList = true

/-- An anchor that a unit is in want of: none stands at the offset, and the first assertion that is
accepted there is the one that it is for. -/
structure ProseUnit.Wants
    (anchorClass : String)
    (candidates : List (SpecAssertion × Pattern))
    (unit : ProseUnit)
    (planned : Planned) : Prop where
  /-- No anchor stands at the offset. -/
  free : unit.index.anchorAt? planned.offset = none
  /-- The assertion is accepted at the offset that its pattern reports, and none before it is. -/
  first : ∃ earlier candidate later, candidates = earlier ++ candidate :: later ∧
    unit.acceptedAt? anchorClass candidate.1 candidate.2 = some planned.offset ∧
    (∀ other ∈ earlier, unit.acceptedAt? anchorClass other.1 other.2 ≠ some planned.offset) ∧
    planned = ⟨planned.offset, candidate.1.id, candidate.2.keyword⟩

/-- In a list without two items of one key, an item is the first one of its key. -/
theorem mem_iff_find?_key_eq_some
    {Item Key : Type}
    [BEq Key]
    [LawfulBEq Key]
    {key : Item → Key}
    {items : List Item}
    (distinct : (items.map key).Nodup)
    {item : Item} :
    item ∈ items ↔ items.find? (fun other => key other == key item) = some item := by
  refine ⟨fun member => ?_, List.mem_of_find?_eq_some⟩
  induction items with
  | nil => cases member
  | cons first items inductionHypothesis =>
      obtain ⟨notLater, laterDistinct⟩ := List.nodup_cons.1 distinct
      rcases List.mem_cons.1 member with rfl | later
      · simp
      · have different : key first ≠ key item := by
          intro same
          exact notLater (same ▸ List.mem_map_of_mem later)
        rw [List.find?_cons_of_neg (by simpa using different)]
        exact inductionHypothesis laterDistinct later

/-- The planned anchors are those that the unit is in want of. -/
theorem ProseUnit.mem_plan_iff
    {anchorClass : String}
    {candidates : List (SpecAssertion × Pattern)}
    {unit : ProseUnit}
    {planned : Planned} :
    planned ∈ unit.plan anchorClass candidates ↔ unit.Wants anchorClass candidates planned := by
  rw [mem_iff_find?_key_eq_some (ProseUnit.nodup_map_offset_plan candidates),
    ProseUnit.find?_plan]
  cases standing : unit.index.anchorAt? planned.offset with
  | some site =>
      refine ⟨by simp, fun wants => ?_⟩
      rw [wants.free] at standing
      cases standing
  | none =>
      simp only [Option.isSome_none, Bool.false_eq_true, if_false, Option.map_eq_some_iff,
        List.find?_eq_some_iff_append]
      constructor
      · rintro ⟨candidate, ⟨accepted, earlier, later, rfl, isFirst⟩, planned_eq⟩
        refine ⟨standing, earlier, candidate, later, rfl, by simpa using accepted, ?_,
          planned_eq.symm⟩
        intro other member
        simpa using isFirst other member
      · rintro ⟨-, earlier, candidate, later, rfl, accepted, isFirst, planned_eq⟩
        refine ⟨candidate, ⟨by simpa using accepted, earlier, later, rfl, ?_⟩, planned_eq.symm⟩
        intro other member
        simpa using isFirst other member

namespace Annotator

variable (annotator : Annotator) (coverage : Coverage)

/-- An anchor that can be put in after others reaches its offset, if that is between two characters
of the text without any of them. -/
theorem reaches_foldl_put
    (isToken : Text.IsToken annotator.anchorClass)
    {earlier later : List Planned}
    {planned : Planned}
    (insertion : Insertion)
    (ready : Ready annotator.anchorClass (earlier ++ planned :: later) insertion.nodes)
    (boundary : Text.isBoundary planned.offset
      (proseOf (marks annotator.anchorClass insertion.nodes)) = true) :
    Reaches annotator.anchorClass (earlier.foldl (annotator.put coverage) insertion).nodes
      planned.offset := by
  obtain ⟨surroundings, content, position, falls⟩ :=
    (annotator.ready_foldl_put coverage insertion ready).exists_fallsInto
  obtain ⟨segment, located, isText⟩ := falls.exists_at?
  have inserted := annotator.insertedAll_foldl_put coverage insertion ready.of_append
  rw [← inserted.proseOf_marks_eq isToken, falls.isBoundary_eq] at boundary
  exact ⟨segment, position, content, located, isText, boundary⟩

/-- Annotating a unit leaves its text as it is and puts an anchor at its offset for exactly those
that the unit is in want of, beside the anchors that it has.  They are put in from the smallest
offset on, and every one of them finds its offset between two characters of a text node. -/
theorem annotateUnit_lands
    (isToken : Text.IsToken annotator.anchorClass)
    (candidates : List (SpecAssertion × Pattern))
    (before : List Node)
    (node : Node)
    (findings : Findings) :
    let unit := ProseUnit.ofNode annotator.anchorClass before node
    let annotated := annotator.annotateUnit coverage candidates before node findings
    let index := TextIndex.ofNodes annotator.anchorClass annotated.1
    ∃ placed : List Planned,
      (∀ planned, planned ∈ placed ↔ unit.Wants annotator.anchorClass candidates planned) ∧
      (placed.Pairwise fun first second => first.offset < second.offset) ∧
      index.text = unit.index.text ∧
      index.anchors.Perm (placed.map Planned.site ++ unit.index.anchors) ∧
      annotated.1 = (placed.foldl (annotator.put coverage) { nodes := [node] }).nodes ∧
      ∀ earlier planned later, placed = earlier ++ planned :: later →
        Reaches annotator.anchorClass
          (earlier.foldl (annotator.put coverage) { nodes := [node] }).nodes planned.offset := by
  intro unit annotated index
  have annotated_eq : annotated.1 = annotator.standIns coverage candidates unit :=
    congrArg Prod.fst (annotator.annotateUnit_eq coverage candidates before node findings)
  let plan := unit.plan annotator.anchorClass candidates
  have distinct : (plan.map Planned.offset).Nodup := ProseUnit.nodup_map_offset_plan candidates
  have increasing := pairwise_inOrder distinct
  have isPlanned (planned : Planned) : planned ∈ inOrder plan ↔ planned ∈ plan :=
    (inOrder_perm plan).mem_iff
  refine ⟨inOrder plan, ?_, increasing, ?_, ?_, annotated_eq, ?_⟩
  · intro planned
    rw [isPlanned]
    exact ProseUnit.mem_plan_iff
  · obtain ⟨sorted, -, inserted⟩ :=
      annotator.insertedAll_standIns coverage candidates before node
    simp only [index, annotated_eq]
    exact TextIndex.text_ofNodes_eq (inserted.proseOf_marks_eq isToken)
  · simp only [index, annotated_eq, TextIndex.anchors_ofNodes]
    refine (annotator.anchors_standIns_perm coverage candidates isToken before node).trans ?_
    refine (((inOrder_perm plan).map Planned.site).symm.append_right _).trans ?_
    simp only [unit, ProseUnit.ofNode, TextIndex.anchors_ofNodes]
    exact .refl _
  · intro earlier planned later split
    have ready : Ready annotator.anchorClass (earlier ++ planned :: later) [node] :=
      split ▸ ProseUnit.ready_plan annotator.anchorClass candidates before node
    have wanted : planned ∈ plan := (isPlanned planned).1 (by simp [split])
    exact annotator.reaches_foldl_put coverage isToken { nodes := [node] } ready
      (ProseUnit.boundary_of_mem_plan wanted).1

/-- Two anchors come to stand behind characters of several bytes in a text that is a unit itself:
the second one divides what the first one left of it. -/
theorem annotateUnit_lands_bareText :
    let annotator : Annotator := {}
    let candidates := Annotator.candidates
      [{ id := "grave", text := "à<^>" }, { id := "acute", text := "é<^>" }]
    let annotated := annotator.annotateUnit {} candidates [] (.text "é, à") {}
    let index := TextIndex.ofNodes annotator.anchorClass annotated.1
    Text.IsToken annotator.anchorClass ∧ index.text = "é, à" ∧
      index.anchors.Perm [⟨2, some "acute"⟩, ⟨6, some "grave"⟩] := by
  intro annotator candidates annotated index
  have isToken : Text.IsToken annotator.anchorClass := by decide
  obtain ⟨placed, wanted, increasing, text_eq, anchors, -⟩ :=
    annotateUnit_lands annotator {} isToken candidates [] (.text "é, à") {}
  have noAnchors :
      (ProseUnit.ofNode annotator.anchorClass [] (.text "é, à")).index.anchors = [] := by
    decide
  have plan_eq :
      (ProseUnit.ofNode annotator.anchorClass [] (.text "é, à")).plan
        annotator.anchorClass candidates = [⟨6, "grave", .none⟩, ⟨2, "acute", .none⟩] := by
    decide +kernel
  have isPerm : placed.Perm [⟨2, "acute", .none⟩, ⟨6, "grave", .none⟩] := by
    rw [List.perm_ext_iff_of_nodup (increasing.imp fun behind same => by simp [same] at behind)
      (by decide)]
    intro planned
    rw [wanted, ← ProseUnit.mem_plan_iff, plan_eq]
    exact (List.Perm.swap _ _ _).mem_iff
  rw [noAnchors, List.append_nil] at anchors
  exact ⟨isToken, text_eq.trans (by decide), anchors.trans (isPerm.map Planned.site)⟩

end Annotator

end CrossReference
end Conformance
