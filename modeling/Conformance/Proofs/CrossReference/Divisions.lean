import Conformance.Proofs.CrossReference.Walk

/-!
# Divisions of text nodes

A text node is divided between two characters or inside one.  Where the class of anchors is a single
word, the anchors that come in are recognized and add nothing to the text, and every division falls
between two characters.  A class that is no single word is not found on any element.  Then anchors
count as prose once they are put in, and an offset that was taken from the text before need not be
a boundary of the text in which the next anchor is put.
-/

namespace Conformance

namespace Text

/-- Among characters of one byte every position is a boundary. -/
theorem isBoundary_of_oneByte
    {position : Nat}
    {text : List Char}
    (oneByte : ∀ character ∈ text, character.utf8Size = 1)
    (bounded : position ≤ byteSize text) :
    isBoundary position text = true := by
  induction text generalizing position with
  | nil =>
      obtain rfl : position = 0 := Nat.le_zero.1 bounded
      rfl
  | cons character text inductionHypothesis =>
      obtain ⟨firstOneByte, othersOneByte⟩ := List.forall_mem_cons.1 oneByte
      rw [byteSize_cons, firstOneByte] at bounded
      cases position with
      | zero => simp [isBoundary, cutAt, firstOneByte]
      | succ position =>
          have later := inductionHypothesis othersOneByte (show position ≤ byteSize text by omega)
          rw [isBoundary, beq_iff_eq] at later ⊢
          rw [cutAt, firstOneByte, if_pos (by omega)]
          simp only [Nat.add_sub_cancel, byteSize_cons, firstOneByte, later]
          omega

end Text

namespace Markup

/-- Only a single word is a class of an element. -/
theorem Tag.isToken_of_hasClass
    {tag : Tag}
    {className : String}
    (hasClass : tag.hasClass className = true) :
    Text.IsToken className := by
  rw [Tag.hasClass, List.contains_iff_mem] at hasClass
  obtain ⟨word, isWord, rfl⟩ := List.mem_map.1 hasClass
  exact Text.isToken_of_mem_words (by simpa using isWord)

end Markup

namespace CrossReference

open Markup
open Prose (Pattern)

/-- With a class that is no single word, all text counts as prose. -/
theorem proseOf_marks_of_not_isToken
    {anchorClass : String}
    (noToken : ¬ Text.IsToken anchorClass) :
    (nodes : List Node) →
      proseOf (marks anchorClass nodes) = (Node.textContents nodes).toList
  | [] => by simp [Node.textContents]
  | .text content :: rest => by
      simp [Node.textContents, Node.textContent, Piece.content,
        proseOf_marks_of_not_isToken noToken rest]
  | .comment content :: rest => by
      simp [Node.textContents, Node.textContent, proseOf_marks_of_not_isToken noToken rest]
  | .element tag children :: rest => by
      have isOther : tag.hasClass anchorClass = false := by
        rw [← Bool.not_eq_true]
        exact fun hasClass => noToken (Tag.isToken_of_hasClass hasClass)
      rw [marks_element_cons isOther, proseOf_append, proseOf_marks_of_not_isToken noToken children,
        proseOf_marks_of_not_isToken noToken rest]
      simp [Node.textContents, Node.textContent]

/-- Sightings change no division. -/
theorem Findings.divisions_foldl_note (findings : Findings) (sightings : List Sighting) :
    (sightings.foldl note findings).divisions = findings.divisions := by
  induction sightings generalizing findings with
  | nil => rfl
  | cons sighting sightings inductionHypothesis =>
      exact inductionHypothesis (findings.note sighting)

/-- Whether the offsets of planned anchors are boundaries one after the other, when every anchor
that is put in adds some text. -/
def fits (added : Planned → List Char) : List Planned → List Char → Bool
  | [], _ => true
  | planned :: later, text =>
      Text.isBoundary planned.offset text &&
        fits added later (Text.insertText planned.offset (added planned) text)

/-- Offsets of the text are boundaries if nothing is added to it. -/
theorem fits_of_added_eq_nil
    {added : Planned → List Char}
    {plan : List Planned}
    {text : List Char}
    (nothing : ∀ planned ∈ plan, added planned = [])
    (boundaries : ∀ planned ∈ plan, Text.isBoundary planned.offset text = true) :
    fits added plan text = true := by
  induction plan with
  | nil => rfl
  | cons planned plan inductionHypothesis =>
      obtain ⟨nothingHere, nothingLater⟩ := List.forall_mem_cons.1 nothing
      obtain ⟨boundary, laterBoundaries⟩ := List.forall_mem_cons.1 boundaries
      rw [fits, boundary, nothingHere, Text.insertText_nil, Bool.true_and]
      exact inductionHypothesis nothingLater laterBoundaries

/-- Offsets in the text are boundaries if all characters, those that are added too, have one byte
each. -/
theorem fits_of_oneByte
    {added : Planned → List Char}
    {plan : List Planned}
    {text : List Char}
    (textOneByte : ∀ character ∈ text, character.utf8Size = 1)
    (addedOneByte : ∀ planned ∈ plan, ∀ character ∈ added planned, character.utf8Size = 1)
    (bounded : ∀ planned ∈ plan, planned.offset ≤ Text.byteSize text) :
    fits added plan text = true := by
  induction plan generalizing text with
  | nil => rfl
  | cons planned plan inductionHypothesis =>
      obtain ⟨hereOneByte, laterOneByte⟩ := List.forall_mem_cons.1 addedOneByte
      obtain ⟨boundedHere, boundedLater⟩ := List.forall_mem_cons.1 bounded
      rw [fits, Text.isBoundary_of_oneByte textOneByte boundedHere, Bool.true_and]
      apply inductionHypothesis _ laterOneByte
      · intro other member
        rw [Text.byteSize_insertText]
        exact Nat.le_add_right_of_le (boundedLater other member)
      · intro character member
        rw [Text.insertText, List.append_assoc, List.mem_append, List.mem_append] at member
        rw [← Text.cutAt_fst_append_snd planned.offset text] at textOneByte
        rcases member with inFront | isAdded | behind
        · exact textOneByte character (List.mem_append_left _ inFront)
        · exact hereOneByte character isAdded
        · exact textOneByte character (List.mem_append_right _ behind)

namespace Annotator

variable (annotator : Annotator) (coverage : Coverage)

/-- The text that an anchor adds to an index, once it is put in. -/
def addedText (planned : Planned) : List Char :=
  proseOf (marks annotator.anchorClass [annotator.anchor coverage planned.id planned.keyword])

/-- All text nodes are divided between two characters exactly if the offsets fit. -/
theorem all_isClean_foldl_put
    {plan : List Planned}
    (insertion : Insertion)
    (ready : Ready annotator.anchorClass plan insertion.nodes) :
    (plan.foldl (annotator.put coverage) insertion).divisions.all Division.isClean =
      (insertion.divisions.all Division.isClean &&
        fits (annotator.addedText coverage) plan
          (proseOf (marks annotator.anchorClass insertion.nodes))) := by
  induction plan generalizing insertion with
  | nil => simp [fits]
  | cons planned plan inductionHypothesis =>
      obtain ⟨surroundings, content, position, falls⟩ := ready.exists_fallsInto
      have text_eq := falls.proseOf_marks_divide
        (annotator.anchor coverage planned.id planned.keyword)
      have put_eq := annotator.put_eq coverage falls
      rw [List.foldl_cons, inductionHypothesis _ (annotator.ready_put coverage ready), put_eq,
        text_eq, fits, falls.isBoundary_eq]
      simp [Division.isClean, Bool.and_assoc, addedText]

/-- An anchor that is recognized adds no text. -/
theorem addedText_of_isToken
    (isToken : Text.IsToken annotator.anchorClass)
    (planned : Planned) :
    annotator.addedText coverage planned = [] := by
  rw [addedText, annotator.marks_anchor isToken]
  rfl

/-- The text that an anchor holds: its mark and the names of the tests. -/
def heldText (planned : Planned) : List Char :=
  (annotator.anchor coverage planned.id planned.keyword).textContent.toList

/-- An anchor that is not recognized adds all that it holds. -/
theorem addedText_of_not_isToken (noToken : ¬ Text.IsToken annotator.anchorClass) :
    annotator.addedText coverage = annotator.heldText coverage := by
  funext planned
  rw [addedText, heldText, proseOf_marks_of_not_isToken noToken]
  simp [Node.textContents]

variable (candidates : List (SpecAssertion × Pattern))

/-- The text nodes of a unit are divided between two characters exactly if the offsets fit. -/
theorem all_isClean_insertionFor (before : List Node) (node : Node) :
    let unit := ProseUnit.ofNode annotator.anchorClass before node
    (annotator.insertionFor coverage candidates unit).divisions.all Division.isClean =
      fits (annotator.addedText coverage)
        (inOrder (unit.plan annotator.anchorClass candidates)) unit.index.text.toList := by
  intro unit
  have insertion_eq : annotator.insertionFor coverage candidates unit =
      (inOrder (unit.plan annotator.anchorClass candidates)).foldl (annotator.put coverage)
        { nodes := [node] } :=
    rfl
  rw [insertion_eq, annotator.all_isClean_foldl_put coverage _
    (ProseUnit.ready_plan annotator.anchorClass candidates before node)]
  simp [unit, ProseUnit.ofNode]

/-- The review changes no division. -/
theorem divisions_foldl_review (assertions : List SpecAssertion) (findings : Findings) :
    (assertions.foldl (review coverage) findings).divisions = findings.divisions := by
  induction assertions generalizing findings with
  | nil => rfl
  | cons assertion assertions inductionHypothesis =>
      exact inductionHypothesis (review coverage findings assertion)

/-- The divisions of a run are those in the visited units. -/
theorem divisions_annotate (document : Document) (assertions : List SpecAssertion) :
    (annotator.annotate document assertions coverage).2.divisions =
      annotator.divisionsOf coverage (Annotator.candidates assertions)
        (annotator.visits coverage document assertions) := by
  rw [annotate_snd, divisions_foldl_review, noteAll, Findings.addDivisions,
    Findings.divisions_foldl_note, List.nil_append]

theorem isClean_annotate_iff_fits (document : Document) (assertions : List SpecAssertion) :
    (annotator.annotate document assertions coverage).2.isClean = true ↔
      ∀ unit ∈ annotator.visits coverage document assertions,
        fits (annotator.addedText coverage)
          (inOrder (unit.plan annotator.anchorClass (Annotator.candidates assertions)))
          unit.index.text.toList = true := by
  rw [Findings.isClean, divisions_annotate, divisionsOf, List.all_flatMap, List.all_eq_true]
  refine forall₂_congr fun unit isVisited => ?_
  obtain ⟨before, node, rfl⟩ :
      ∃ before node, unit = ProseUnit.ofNode annotator.anchorClass before node :=
    ⟨_, _, eq_ofNode_of_mem_units isVisited⟩
  rw [all_isClean_insertionFor]

/-- No text node is divided inside a character exactly if the class of anchors is a single word, or
if in every visited unit the planned offsets fall between two characters although the anchors that
were put in before count as prose with all that they hold. -/
theorem isClean_annotate_iff (document : Document) (assertions : List SpecAssertion) :
    (annotator.annotate document assertions coverage).2.isClean = true ↔
      Text.IsToken annotator.anchorClass ∨
        ∀ unit ∈ annotator.visits coverage document assertions,
          fits (annotator.heldText coverage)
            (inOrder (unit.plan annotator.anchorClass (Annotator.candidates assertions)))
            unit.index.text.toList = true := by
  rw [isClean_annotate_iff_fits]
  by_cases isToken : Text.IsToken annotator.anchorClass
  · refine iff_of_true (fun unit isVisited => ?_) (.inl isToken)
    rw [eq_ofNode_of_mem_units isVisited]
    apply fits_of_added_eq_nil
    · exact fun planned _ => annotator.addedText_of_isToken coverage isToken planned
    · intro planned member
      have isPlanned := (inOrder_perm _).mem_iff.1 member
      rw [ProseUnit.ofNode, TextIndex.toList_text_ofNodes]
      exact (ProseUnit.boundary_of_mem_plan isPlanned).1
  · rw [or_iff_right isToken, annotator.addedText_of_not_isToken coverage isToken]

theorem oneByte_heldText
    (namesOneByte : ∀ id, ∀ test ∈ coverage.testsFor id, ∀ character ∈ test.toList,
      character.utf8Size = 1)
    (planned : Planned) :
    ∀ character ∈ annotator.heldText coverage planned, character.utf8Size = 1 := by
  have links (tests : List String)
      (oneByte : ∀ test ∈ tests, ∀ character ∈ test.toList, character.utf8Size = 1) :
      ∀ character ∈ (Node.textContents (tests.flatMap annotator.testLink)).toList,
        character.utf8Size = 1 := by
    induction tests with
    | nil => simp [Node.textContents]
    | cons test tests inductionHypothesis =>
        obtain ⟨nameOneByte, othersOneByte⟩ := List.forall_mem_cons.1 oneByte
        intro character member
        simp only [List.flatMap_cons, Node.textContents_append, testLink, Node.textContents,
          Node.textContent, String.toList_append, String.append_empty, List.mem_append] at member
        rcases member with (inName | isBlank) | later
        · exact nameOneByte character inName
        · obtain rfl : character = ' ' := by simpa using isBlank
          rfl
        · exact inductionHypothesis othersOneByte character later
  intro character member
  rw [heldText, anchor, Node.textContent, Node.textContents_append, String.toList_append,
    List.mem_append] at member
  rcases member with isMark | inLinks
  · have ofMark : character = ' ' ∨ character = '#' := by
      simpa [Node.textContents, Node.textContent, or_comm] using isMark
    rcases ofMark with rfl | rfl <;> rfl
  · exact links _ (namesOneByte planned.id) character inLinks

/-- Where all characters have one byte, those in the names of tests too, no text node is divided
inside a character, whatever the class of anchors is. -/
theorem isClean_annotate_of_oneByte
    {document : Document}
    (proseOneByte : ∀ unit ∈ annotator.units ProseUnit.kept document,
      ∀ character ∈ unit.index.text.toList, character.utf8Size = 1)
    (namesOneByte : ∀ id, ∀ test ∈ coverage.testsFor id, ∀ character ∈ test.toList,
      character.utf8Size = 1)
    (assertions : List SpecAssertion) :
    (annotator.annotate document assertions coverage).2.isClean = true := by
  refine (annotator.isClean_annotate_iff_fits coverage document assertions).2 ?_
  intro unit isVisited
  have isNode : unit.node ∈ (annotator.units ProseUnit.kept document).map ProseUnit.node := by
    rw [map_node_units_eq (annotator.standIns coverage (Annotator.candidates assertions))]
    exact List.mem_map_of_mem isVisited
  obtain ⟨kept, isKept, sameNode⟩ := List.mem_map.1 isNode
  have sameText : unit.index.text = kept.index.text := by
    rw [eq_ofNode_of_mem_units isVisited, eq_ofNode_of_mem_units isKept]
    simp only [ProseUnit.ofNode, sameNode]
  apply fits_of_oneByte
  · rw [sameText]
    exact proseOneByte kept isKept
  · intro planned _
    by_cases isToken : Text.IsToken annotator.anchorClass
    · simp [annotator.addedText_of_isToken coverage isToken]
    · rw [annotator.addedText_of_not_isToken coverage isToken]
      exact annotator.oneByte_heldText coverage namesOneByte planned
  · intro planned member
    have isPlanned := (inOrder_perm _).mem_iff.1 member
    rw [eq_ofNode_of_mem_units isVisited] at isPlanned ⊢
    rw [ProseUnit.ofNode, TextIndex.toList_text_ofNodes]
    exact (ProseUnit.boundary_of_mem_plan isPlanned).2.1

/-- With a class of two words the second anchor is put into the middle of a letter of two bytes:
its offset does not count the text of the first one. -/
theorem annotate_not_clean :
    ¬ ∀ (annotator : Annotator) (document : Document) (assertions : List SpecAssertion)
        (coverage : Coverage),
        (annotator.annotate document assertions coverage).2.isClean = true := by
  intro claimed
  let annotator : Annotator := { anchorClass := "test refs" }
  let paragraph : Node := .element { name := "p" } [.text "ééé"]
  let document : Document := ⟨{ name := "html" }, [.element { name := "body" } [paragraph]]⟩
  let assertions : List SpecAssertion :=
    [{ id := "first", text := "<^>ééé" }, { id := "third", text := "éé<^>é" }]
  let unit := ProseUnit.ofNode annotator.anchorClass [] paragraph
  have fitting := (annotator.isClean_annotate_iff_fits {} document assertions).1
    (claimed annotator document assertions {}) unit List.mem_cons_self
  have plan_eq : unit.plan annotator.anchorClass (Annotator.candidates assertions) =
      [⟨0, "first", .none⟩, ⟨4, "third", .none⟩] := by
    decide +kernel
  rw [plan_eq, inOrder, List.mergeSort_of_pairwise (by decide)] at fitting
  revert fitting
  decide +kernel

end Annotator

end CrossReference
end Conformance
