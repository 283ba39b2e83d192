import Conformance.CrossReference.Plan
import Conformance.Proofs.CrossReference.Marks
import Conformance.Proofs.Text.Boundary

/-!
# Putting anchors in

A node is inserted at an offset of some nodes when it divides the text node that the offset falls
into.  Putting a planned anchor in is such an insertion, and putting in a whole plan is one
insertion for each planned anchor, none of which is left out.
-/

namespace Conformance
namespace CrossReference

open Markup

/-! ## Locating an offset -/

/-- A text piece that a search by offset stops at holds the offset. -/
theorem piece_of_find?_segment
    {pieces : List Piece}
    {start offset : Nat}
    {segment : Segment}
    (reached : start ≤ offset)
    (found :
      (segmentsFrom start pieces).find? (fun segment => decide (offset < segment.finish)) =
        some segment) :
    ∃ front path content back, pieces = front ++ .text path content :: back ∧
      segment = ⟨path, start + Text.byteSize (proseOf front), Text.byteSize content.toList⟩ ∧
      segment.start ≤ offset ∧ offset < segment.finish := by
  induction pieces generalizing start with
  | nil => simp [segmentsFrom] at found
  | cons piece pieces inductionHypothesis =>
      cases piece with
      | anchor assertion =>
          obtain ⟨front, path, content, back, rfl, rfl, bounds⟩ :=
            inductionHypothesis reached found
          exact ⟨.anchor assertion :: front, path, content, back, rfl, by
            simp [Piece.content], bounds⟩
      | text path content =>
          rw [segmentsFrom, List.find?_cons] at found
          by_cases inside : offset < start + Text.byteSize content.toList
          · simp only [Segment.finish, inside, decide_true, Option.some.injEq] at found
            subst found
            exact ⟨[], path, content, pieces, rfl, rfl, reached, inside⟩
          · simp only [Segment.finish, inside, decide_false] at found
            obtain ⟨front, laterPath, laterContent, back, rfl, rfl, bounds⟩ :=
              inductionHypothesis (by omega) found
            refine ⟨.text path content :: front, laterPath, laterContent, back, rfl, ?_, bounds⟩
            simp [Piece.content, Nat.add_assoc]

/-- The last text piece has no text piece behind it. -/
theorem piece_of_getLast?_segment
    {pieces : List Piece}
    {start : Nat}
    {segment : Segment}
    (last : (segmentsFrom start pieces).getLast? = some segment) :
    ∃ front path content back, pieces = front ++ .text path content :: back ∧
      segment = ⟨path, start + Text.byteSize (proseOf front), Text.byteSize content.toList⟩ ∧
      back.any Piece.isText = false := by
  induction pieces generalizing start with
  | nil => simp [segmentsFrom] at last
  | cons piece pieces inductionHypothesis =>
      cases piece with
      | anchor assertion =>
          obtain ⟨front, path, content, back, rfl, rfl, noText⟩ := inductionHypothesis last
          exact ⟨.anchor assertion :: front, path, content, back, rfl, by
            simp [Piece.content], noText⟩
      | text path content =>
          rw [segmentsFrom, List.getLast?_cons] at last
          cases later : (segmentsFrom (start + Text.byteSize content.toList) pieces).getLast? with
          | none =>
              rw [later] at last
              simp only [Option.getD_none, Option.some.injEq] at last
              subst last
              rw [List.getLast?_eq_none_iff, segmentsFrom_eq_nil_iff] at later
              exact ⟨[], path, content, pieces, rfl, rfl, later⟩
          | some laterSegment =>
              rw [later] at last
              simp only [Option.getD_some, Option.some.injEq] at last
              subst last
              obtain ⟨front, laterPath, laterContent, back, rfl, rfl, noText⟩ :=
                inductionHypothesis later
              refine ⟨.text path content :: front, laterPath, laterContent, back, rfl, ?_, noText⟩
              simp [Piece.content, Nat.add_assoc]

/-- Where an offset of the text is located: in a text piece, behind the text before it, and at its
end only if it is the last one. -/
theorem piece_of_locate?
    {pieces : List Piece}
    {offset position : Nat}
    {segment : Segment}
    (bounded : offset ≤ Text.byteSize (proseOf pieces))
    (located : (TextIndex.ofPieces pieces).locate? offset = some (segment, position)) :
    ∃ front content back, pieces = front ++ .text segment.path content :: back ∧
      position ≤ Text.byteSize content.toList ∧
      Text.byteSize (proseOf front) + position = offset ∧
      (position < Text.byteSize content.toList ∨ back.any Piece.isText = false) := by
  simp only [TextIndex.locate?, TextIndex.ofPieces, Option.map_eq_some_iff,
    Prod.mk.injEq] at located
  obtain ⟨found, foundIn, rfl, rfl⟩ := located
  cases first : (segmentsFrom 0 pieces).find? fun segment => decide (offset < segment.finish) with
  | some holding =>
      rw [first] at foundIn
      cases foundIn
      obtain ⟨front, path, content, back, rfl, rfl, reached, inside⟩ :=
        piece_of_find?_segment (Nat.zero_le offset) first
      simp only [Segment.finish] at reached inside ⊢
      exact ⟨front, content, back, rfl, by omega, by omega, by omega⟩
  | none =>
      rw [first] at foundIn
      have passed : found.finish ≤ offset := by
        simpa using List.find?_eq_none.1 first found (List.mem_of_getLast? foundIn)
      obtain ⟨front, path, content, back, rfl, rfl, noText⟩ := piece_of_getLast?_segment foundIn
      simp only [Segment.finish] at passed ⊢
      simp only [proseOf_append, proseOf_cons, proseOf_eq_nil noText, Piece.content,
        Text.byteSize_append, Text.byteSize_nil] at bounded
      exact ⟨front, content, back, rfl, by omega, by omega, .inr noText⟩

/-! ## One insertion -/

/-- The second nodes come about from the first ones when a node is put at an offset of their text:
it divides a text node, outside of anchors, that the offset falls into. -/
inductive Inserted (anchorClass : String) (node : Node) (offset : Nat) :
    List Node → List Node → Prop where
  | intro
      (surroundings : Surroundings)
      (content : String)
      (position : Nat)
      (isOpen : surroundings.IsOpen anchorClass)
      (inside : position ≤ Text.byteSize content.toList)
      (reached :
        Text.byteSize (proseOf (surroundings.marksBefore anchorClass)) + position = offset) :
      Inserted anchorClass node offset
        (surroundings.fill [.text content])
        (surroundings.fill (divide content position node))

theorem at?_pathFrom_fill (surroundings : Surroundings) (node : Node) :
    Node.at? (surroundings.pathFrom 0) (surroundings.fill [node]) = some node := by
  induction surroundings with
  | siblings front back => simp [Surroundings.pathFrom, Surroundings.fill, Node.at?]
  | inside front tag inner back inductionHypothesis =>
      rw [Surroundings.pathFrom, Node.at?_cons_eq_some_iff]
      exact .inr ⟨tag, inner.fill [node], by simp [Surroundings.fill], inductionHypothesis⟩

/-- Inserting at the path of surroundings divides the text node that they are filled with. -/
theorem insertAt_pathFrom_fill
    (node : Node)
    (position : Nat)
    (surroundings : Surroundings)
    (content : String) :
    insertAt node position (surroundings.pathFrom 0) (surroundings.fill [.text content]) =
      surroundings.fill (divide content position node) := by
  induction surroundings with
  | siblings front back => simp [Surroundings.pathFrom, Surroundings.fill, insertAt]
  | inside front tag inner back inductionHypothesis =>
      rw [Surroundings.pathFrom, insertAt.eq_3 _ _ _ _ _ (inner.pathFrom_ne_nil 0)]
      simp [Surroundings.fill, inductionHypothesis, List.modify_eq_take_cons_drop]

@[simp]
theorem proseOf_marks_textNode (anchorClass : String) (content : List Char) :
    proseOf (marks anchorClass (textNode content)) = content := by
  cases content <;> simp [textNode, Piece.content]

@[simp]
theorem anchorsFrom_marks_textNode (anchorClass : String) (offset : Nat) (content : List Char) :
    anchorsFrom offset (marks anchorClass (textNode content)) = [] := by
  cases content <;> simp [textNode, anchorsFrom]

@[simp]
theorem countTags_textNode (asked : Tag → Bool) (content : List Char) :
    Node.countTags asked (textNode content) = 0 := by
  cases content <;> simp [textNode, Node.countTags, Node.countTagsIn]

@[simp]
theorem stripAll_textNode (className : String) (content : List Char) :
    Node.stripAll className (textNode content) = textNode content := by
  cases content <;> simp [textNode, Node.stripAll, Node.strip, Node.hasClass]

theorem textEquivalent_textNode (content : List Char) :
    TextEquivalent (textNode content) [.text (String.ofList content)] := by
  cases content with
  | nil => exact .symm .dropEmpty
  | cons character rest => exact .refl _

/-- The halves of a divided text node are together equivalent to it. -/
theorem textEquivalent_textNode_append (front back : List Char) :
    TextEquivalent (textNode front ++ textNode back) [.text (String.ofList (front ++ back))] := by
  rw [String.ofList_append]
  exact (TextEquivalent.append (textEquivalent_textNode front)
    (textEquivalent_textNode back)).trans (.merge _ _)

/-- A divided text node consists of two halves around the node that divides it. -/
theorem exists_halves (content : String) (position : Nat) (node : Node) :
    ∃ front back, content.toList = front ++ back ∧
      divide content position node = textNode front ++ node :: textNode back ∧
      (Text.isBoundary position content.toList = true → Text.byteSize front = position) :=
  ⟨_, _, (Text.cutAt_fst_append_snd position content.toList).symm, rfl,
    fun boundary => by simpa [Text.isBoundary] using boundary⟩

/-- An offset of the text of some nodes falls into one of their text nodes: it is located there, at
a position in the content that, behind the text before, makes up the offset. -/
structure FallsInto
    (anchorClass : String)
    (nodes : List Node)
    (offset : Nat)
    (surroundings : Surroundings)
    (content : String)
    (position : Nat) : Prop where
  /-- The text node stands in its surroundings. -/
  nodes_eq : nodes = surroundings.fill [.text content]
  /-- It does not stand in an anchor. -/
  isOpen : surroundings.IsOpen anchorClass
  /-- The position lies in the content. -/
  inside : position ≤ Text.byteSize content.toList
  /-- The position belongs to the offset. -/
  reached : Text.byteSize (proseOf (surroundings.marksBefore anchorClass)) + position = offset
  /-- Only behind the last text node is the end meant. -/
  beforeEnd : position < Text.byteSize content.toList ∨
    (surroundings.marksBehind anchorClass).any Piece.isText = false
  /-- The index leads there. -/
  located : ∃ segment : Segment, segment.path = surroundings.pathFrom 0 ∧
    (TextIndex.ofNodes anchorClass nodes).locate? offset = some (segment, position)

/-- Every offset of the text falls into a text node if there is one. -/
theorem exists_fallsInto
    {anchorClass : String}
    {nodes : List Node}
    {offset : Nat}
    (bounded : offset ≤ Text.byteSize (proseOf (marks anchorClass nodes)))
    (holdsText : (marks anchorClass nodes).any Piece.isText = true) :
    ∃ surroundings content position,
      FallsInto anchorClass nodes offset surroundings content position := by
  rw [← TextIndex.isSome_locate?_ofNodes _ _ offset, Option.isSome_iff_exists] at holdsText
  obtain ⟨⟨segment, position⟩, located⟩ := holdsText
  have bounded' : offset ≤ Text.byteSize (proseOf (piecesFrom anchorClass 0 nodes)) := by
    simpa [marks] using bounded
  obtain ⟨front, content, back, pieces_eq, inside, reached, beforeEnd⟩ :=
    piece_of_locate? bounded' located
  obtain ⟨surroundings, isOpen, nodes_eq, path_eq, before, behind⟩ :=
    surroundings_of_piecesFrom 0 nodes pieces_eq
  refine ⟨surroundings, content, position, nodes_eq, isOpen, inside, ?_, ?_,
    segment, path_eq, located⟩
  · simpa [before] using reached
  · simpa [behind, Function.comp_def] using beforeEnd

namespace FallsInto

variable {anchorClass : String} {nodes : List Node} {offset : Nat} {surroundings : Surroundings}
  {content : String} {position : Nat}

/-- A boundary of the text is one of the text node that it falls into. -/
theorem isBoundary_eq
    (falls : FallsInto anchorClass nodes offset surroundings content position) :
    Text.isBoundary offset (proseOf (marks anchorClass nodes)) =
      Text.isBoundary position content.toList := by
  rw [← falls.reached, falls.nodes_eq, Surroundings.marks_fill falls.isOpen]
  simpa [Piece.content] using Text.isBoundary_middle falls.inside
    (proseOf (surroundings.marksBefore anchorClass))
    (proseOf (surroundings.marksBehind anchorClass))

/-- The path of the segment in which an offset is located leads to the text node. -/
theorem exists_at?
    (falls : FallsInto anchorClass nodes offset surroundings content position) :
    ∃ segment : Segment,
      (TextIndex.ofNodes anchorClass nodes).locate? offset = some (segment, position) ∧
        Node.at? segment.path nodes = some (.text content) := by
  obtain ⟨segment, path_eq, located⟩ := falls.located
  refine ⟨segment, located, ?_⟩
  rw [path_eq, falls.nodes_eq, at?_pathFrom_fill]

/-- A node that divides a text node adds its text to the text at the offset. -/
theorem proseOf_marks_divide
    (falls : FallsInto anchorClass nodes offset surroundings content position)
    (node : Node) :
    proseOf (marks anchorClass (surroundings.fill (divide content position node))) =
      Text.insertText offset (proseOf (marks anchorClass [node]))
        (proseOf (marks anchorClass nodes)) := by
  have cut := Text.cutAt_middle falls.inside
    (proseOf (surroundings.marksBefore anchorClass))
    (proseOf (surroundings.marksBehind anchorClass))
  rw [falls.reached, List.append_assoc] at cut
  have halves : divide content position node =
      textNode (Text.cutAt position content.toList).1 ++ [node] ++
        textNode (Text.cutAt position content.toList).2 := by
    simp [divide]
  rw [falls.nodes_eq, Surroundings.marks_fill falls.isOpen, Surroundings.marks_fill falls.isOpen,
    Text.insertText, halves]
  simp only [marks_append, proseOf_append, proseOf_marks_textNode, marks_text_cons, marks_nil,
    proseOf_cons, proseOf_nil, Piece.content, List.append_nil, cut, List.append_assoc]

end FallsInto

namespace Inserted

variable {anchorClass : String} {node : Node} {offset : Nat} {first second : List Node}

/-- Inserting an anchor leaves the text as it is. -/
theorem proseOf_marks_eq
    (inserted : Inserted anchorClass node offset first second)
    {assertion : Option String}
    (isAnchor : marks anchorClass [node] = [.anchor assertion]) :
    proseOf (marks anchorClass second) = proseOf (marks anchorClass first) := by
  obtain ⟨surroundings, content, position, isOpen, _, _⟩ := inserted
  obtain ⟨front, back, content_eq, divide_eq, _⟩ := exists_halves content position node
  rw [Surroundings.marks_fill isOpen, Surroundings.marks_fill isOpen, divide_eq,
    ← List.singleton_append, marks_append, marks_append, isAnchor]
  simp [Piece.content, content_eq]

/-- Inserting an anchor at a boundary of the text adds one anchor, at exactly that offset. -/
theorem anchors_perm
    (inserted : Inserted anchorClass node offset first second)
    {assertion : Option String}
    (isAnchor : marks anchorClass [node] = [.anchor assertion])
    (boundary : Text.isBoundary offset (proseOf (marks anchorClass first)) = true) :
    (anchorsFrom 0 (marks anchorClass second)).Perm
      (⟨offset, assertion⟩ :: anchorsFrom 0 (marks anchorClass first)) := by
  obtain ⟨surroundings, content, position, isOpen, inside, rfl⟩ := inserted
  obtain ⟨front, back, content_eq, divide_eq, size⟩ := exists_halves content position node
  have frontSize : Text.byteSize front = position := by
    apply size
    rw [Surroundings.marks_fill isOpen, proseOf_append, proseOf_append] at boundary
    rw [← Text.isBoundary_middle inside]
    simpa [Piece.content] using boundary
  rw [Surroundings.marks_fill isOpen, Surroundings.marks_fill isOpen, divide_eq,
    ← List.singleton_append, marks_append, marks_append, isAnchor]
  simp only [List.append_assoc, anchorsFrom_append, anchorsFrom_marks_textNode, List.nil_append,
    List.singleton_append, anchorsFrom, marks_text_cons, marks_nil, proseOf_marks_textNode,
    frontSize, content_eq, Nat.zero_add, Text.byteSize_append, Nat.add_assoc, proseOf_cons,
    Piece.content, String.toList_empty]
  exact List.perm_middle

/-- Inserting a node adds its elements. -/
theorem countTags_eq
    (inserted : Inserted anchorClass node offset first second)
    (asked : Tag → Bool) :
    Node.countTags asked second = Node.countTags asked first + Node.countTagsIn asked node := by
  obtain ⟨surroundings, content, position, _, _, _⟩ := inserted
  obtain ⟨front, back, _, divide_eq, _⟩ := exists_halves content position node
  have exchanged := surroundings.countTags_fill asked (divide content position node)
    [.text content]
  rw [divide_eq, ← List.singleton_append, Node.countTags_append, Node.countTags_append] at exchanged
  simp only [countTags_textNode, Node.countTags, Node.countTagsIn] at exchanged
  rw [divide_eq]
  simpa using exchanged

/-- An inserted anchor is taken away again with all others. -/
theorem textEquivalent_stripAll
    (inserted : Inserted anchorClass node offset first second)
    (isAnchor : node.hasClass anchorClass = true) :
    TextEquivalent
      (Node.stripAll anchorClass second)
      (Node.stripAll anchorClass first) := by
  obtain ⟨surroundings, content, position, _, _, _⟩ := inserted
  apply surroundings.textEquivalent_stripAll_fill
  obtain ⟨front, back, content_eq, divide_eq, _⟩ := exists_halves content position node
  rw [divide_eq, Node.stripAll_append, Node.stripAll, if_pos isAnchor, stripAll_textNode,
    stripAll_textNode]
  have halves := textEquivalent_textNode_append front back
  rw [← content_eq, String.ofList_toList] at halves
  simpa [Node.stripAll, Node.strip, Node.hasClass] using halves

/-- An element into which something is inserted stays one element. -/
theorem exists_eq_element
    {tag : Tag}
    {children : List Node}
    (inserted : Inserted anchorClass node offset [.element tag children] second) :
    ∃ changed, second = [.element tag changed] := by
  generalize first_eq : [Node.element tag children] = first at inserted
  obtain ⟨surroundings, content, position, _, _, _⟩ := inserted
  cases surroundings with
  | siblings front back =>
      simp only [Surroundings.fill, List.append_assoc, List.singleton_append] at first_eq
      obtain ⟨rfl, impossible⟩ | ⟨_, _, impossible⟩ := List.cons_eq_append_iff.1 first_eq
      · cases impossible
      · simp at impossible
  | inside front innerTag inner back =>
      obtain ⟨rfl, equal⟩ | ⟨_, _, impossible⟩ := List.cons_eq_append_iff.1 first_eq
      · obtain ⟨sameNode, rfl⟩ := List.cons.inj equal
        cases sameNode
        exact ⟨_, rfl⟩
      · simp at impossible

end Inserted

/-! ## Anchors -/

namespace Annotator

variable (annotator : Annotator)

/-- The tag of an anchor. -/
def anchorTag (id : String) (keyword : Keyword) : Tag where
  name := "span"
  attributes :=
    [("class", annotator.anchorClass ++ " kw-" ++ keyword.text),
     ("id", annotator.anchorClass ++ "." ++ id)]

/-- An anchor carries the class of anchors. -/
theorem hasClass_anchorTag
    (isToken : Text.IsToken annotator.anchorClass)
    (id : String)
    (keyword : Keyword) :
    (annotator.anchorTag id keyword).hasClass annotator.anchorClass = true := by
  have isWord := Text.mem_words_of_isToken isToken (show Text.isBlank ' ' = true by decide)
    ("kw-".toList ++ keyword.text.toList)
  have found : annotator.anchorClass ∈ (annotator.anchorTag id keyword).classes := by
    refine List.mem_map.2 ⟨annotator.anchorClass.toList, ?_, String.ofList_toList⟩
    simpa [anchorTag, Tag.attribute?] using isWord
  simpa [Tag.hasClass] using found

/-- An anchor names its assertion. -/
theorem assertionOf?_anchorTag (id : String) (keyword : Keyword) :
    assertionOf? annotator.anchorClass (annotator.anchorTag id keyword) = some id := by
  have idAfter :
      Text.after? (annotator.anchorClass.toList ++ ['.'])
        (annotator.anchorClass ++ "." ++ id).toList = some id.toList := by
    rw [Text.after?_eq_some_iff]
    simp
  have attribute_eq :
      (annotator.anchorTag id keyword).attribute? "id" =
        some (annotator.anchorClass ++ "." ++ id) :=
    rfl
  rw [assertionOf?, attribute_eq, Option.bind_some, idAfter, Option.map_some, String.ofList_toList]

theorem hasClass_anchor
    (isToken : Text.IsToken annotator.anchorClass)
    (coverage : Coverage)
    (id : String)
    (keyword : Keyword) :
    (annotator.anchor coverage id keyword).hasClass annotator.anchorClass = true :=
  annotator.hasClass_anchorTag isToken id keyword

theorem marks_anchor
    (isToken : Text.IsToken annotator.anchorClass)
    (coverage : Coverage)
    (id : String)
    (keyword : Keyword) :
    marks annotator.anchorClass [annotator.anchor coverage id keyword] = [.anchor (some id)] := by
  rw [← annotator.assertionOf?_anchorTag id keyword]
  exact marks_anchor_cons (annotator.hasClass_anchorTag isToken id keyword) _ _

/-- Nothing inside an anchor counts among elements of the class of anchors. -/
theorem countTagsIn_anchor
    {asked : Tag → Bool}
    (onlyAnchors : ∀ tag, asked tag = true → tag.hasClass annotator.anchorClass = true)
    (coverage : Coverage)
    (id : String)
    (keyword : Keyword) :
    Node.countTagsIn asked (annotator.anchor coverage id keyword) =
      if asked (annotator.anchorTag id keyword) then 1 else 0 := by
  have notAsked (name : String) (attributes : List (String × String))
      (noClass : Tag.attribute? ⟨name, attributes⟩ "class" = none) :
      asked ⟨name, attributes⟩ = false := by
    cases isAsked : asked ⟨name, attributes⟩ with
    | false => rfl
    | true =>
        have hasClass := onlyAnchors _ isAsked
        rw [Tag.hasClass_of_attribute?_eq_none noClass] at hasClass
        cases hasClass
  have links (tests : List String) :
      Node.countTags asked (tests.flatMap annotator.testLink) = 0 := by
    induction tests with
    | nil => rfl
    | cons test tests inductionHypothesis =>
        rw [List.flatMap_cons, Node.countTags_append, inductionHypothesis]
        have linkNotAsked := notAsked "a" [("href", test ++ annotator.testLinkSuffix)] rfl
        simp [testLink, Node.countTags, Node.countTagsIn, linkNotAsked]
  have selfNotAsked :=
    notAsked "a" [("href", "#" ++ (annotator.anchorClass ++ "." ++ id)), ("title", id)] rfl
  rw [anchor, Node.countTagsIn, Node.countTags_append, links]
  simp only [Node.countTags, Node.countTagsIn, selfNotAsked]
  rfl

end Annotator

/-! ## All insertions of a plan -/

/-- The last nodes come about from the first ones by the insertion of all planned anchors, one
after the other. -/
inductive InsertedAll (annotator : Annotator) (coverage : Coverage) :
    List Planned → List Node → List Node → Prop where
  | nil (nodes : List Node) : InsertedAll annotator coverage [] nodes nodes
  | cons {planned : Planned} {plan : List Planned} {first second third : List Node} :
      Inserted annotator.anchorClass (annotator.anchor coverage planned.id planned.keyword)
        planned.offset first second →
      InsertedAll annotator coverage plan second third →
      InsertedAll annotator coverage (planned :: plan) first third

/-- Planned anchors are put in from the smallest offset on. -/
theorem pairwise_offset_mergeSort (plan : List Planned) :
    (plan.mergeSort fun first second => decide (first.offset ≤ second.offset)).Pairwise
      fun first second => first.offset ≤ second.offset := by
  refine (List.pairwise_mergeSort ?_ ?_ plan).imp of_decide_eq_true
  · intro first second third
    simp only [decide_eq_true_eq]
    omega
  · intro first second
    simp only [Bool.or_eq_true, decide_eq_true_eq]
    omega

/-- The planned anchors in the order in which they are put in. -/
def inOrder (plan : List Planned) : List Planned :=
  plan.mergeSort fun first second => decide (first.offset ≤ second.offset)

theorem inOrder_perm (plan : List Planned) : (inOrder plan).Perm plan :=
  List.mergeSort_perm plan _

theorem pairwise_inOrder
    {plan : List Planned}
    (distinct : (plan.map Planned.offset).Nodup) :
    (inOrder plan).Pairwise fun first second => first.offset < second.offset := by
  have sameOffsets := (inOrder_perm plan).map Planned.offset
  have different := List.pairwise_map.1 (sameOffsets.nodup_iff.2 distinct)
  refine ((pairwise_offset_mergeSort plan).and different).imp fun both => ?_
  omega

/-- Planned anchors can be put into some nodes: their offsets are growing and lie in the text, and
there is a text node for them. -/
structure Ready (anchorClass : String) (plan : List Planned) (nodes : List Node) : Prop where
  /-- The offsets are growing. -/
  increasing : plan.Pairwise fun earlier later => earlier.offset < later.offset
  /-- They lie in the text. -/
  bounded : ∀ planned ∈ plan, planned.offset ≤ Text.byteSize (proseOf (marks anchorClass nodes))
  /-- There is a text node if it is needed. -/
  holdsText : plan ≠ [] → (marks anchorClass nodes).any Piece.isText = true

namespace Ready

variable {anchorClass : String} {planned : Planned} {plan : List Planned}
  {nodes others : List Node}

theorem exists_fallsInto (ready : Ready anchorClass (planned :: plan) nodes) :
    ∃ surroundings content position,
      FallsInto anchorClass nodes planned.offset surroundings content position :=
  CrossReference.exists_fallsInto (ready.bounded planned List.mem_cons_self)
    (ready.holdsText (List.cons_ne_nil _ _))

theorem of_append
    {earlier later : List Planned}
    (ready : Ready anchorClass (earlier ++ later) nodes) :
    Ready anchorClass earlier nodes where
  increasing := (List.pairwise_append.1 ready.increasing).1
  bounded planned member := ready.bounded planned (List.mem_append_left _ member)
  holdsText nonempty := ready.holdsText (by simp [nonempty])

/-- Where no text is lost, the other anchors of a plan can be put in after the first one. -/
theorem tail
    (ready : Ready anchorClass (planned :: plan) nodes)
    (keepsText : Text.byteSize (proseOf (marks anchorClass nodes)) ≤
      Text.byteSize (proseOf (marks anchorClass others))) :
    Ready anchorClass plan others := by
  obtain ⟨earliest, increasingLater⟩ := List.pairwise_cons.1 ready.increasing
  have boundedLater (later : Planned) (member : later ∈ plan) :=
    Nat.le_trans (ready.bounded later (List.mem_cons_of_mem planned member)) keepsText
  refine ⟨increasingLater, boundedLater, fun nonempty => ?_⟩
  -- Two offsets of one text differ, so the text is not empty.
  obtain ⟨later, member⟩ := List.exists_mem_of_ne_nil plan nonempty
  have behindPlanned := earliest later member
  have laterBounded := boundedLater later member
  apply any_isText_of_byteSize_pos
  omega

end Ready

/-- The place of a planned anchor, once it is put in. -/
def Planned.site (planned : Planned) : AnchorSite :=
  ⟨planned.offset, some planned.id⟩

namespace InsertedAll

variable {annotator : Annotator} {coverage : Coverage} {plan : List Planned}
  {first last : List Node}

theorem proseOf_marks_eq
    (inserted : InsertedAll annotator coverage plan first last)
    (isToken : Text.IsToken annotator.anchorClass) :
    proseOf (marks annotator.anchorClass last) = proseOf (marks annotator.anchorClass first) := by
  induction inserted with
  | nil nodes => rfl
  | cons insertedFirst _ inductionHypothesis =>
      rw [inductionHypothesis,
        insertedFirst.proseOf_marks_eq (annotator.marks_anchor isToken coverage _ _)]

/-- Every planned anchor stands at its offset, beside the anchors that were there before. -/
theorem anchors_perm
    (inserted : InsertedAll annotator coverage plan first last)
    (isToken : Text.IsToken annotator.anchorClass)
    (boundaries : ∀ planned ∈ plan,
      Text.isBoundary planned.offset (proseOf (marks annotator.anchorClass first)) = true) :
    (anchorsFrom 0 (marks annotator.anchorClass last)).Perm
      (plan.map Planned.site ++ anchorsFrom 0 (marks annotator.anchorClass first)) := by
  induction inserted with
  | nil nodes => exact .refl _
  | cons insertedFirst _ inductionHypothesis =>
      rename_i planned plan first second third _
      have isAnchor := annotator.marks_anchor isToken coverage planned.id planned.keyword
      have oneMore := insertedFirst.anchors_perm isAnchor (boundaries planned List.mem_cons_self)
      have others := inductionHypothesis fun later member => by
        rw [insertedFirst.proseOf_marks_eq isAnchor]
        exact boundaries later (List.mem_cons_of_mem planned member)
      exact (others.trans (oneMore.append_left _)).trans List.perm_middle

/-- As many elements that are asked for come in as there are anchors of them in the plan. -/
theorem countTags_eq
    (inserted : InsertedAll annotator coverage plan first last)
    {asked : Tag → Bool}
    (onlyAnchors : ∀ tag, asked tag = true → tag.hasClass annotator.anchorClass = true) :
    Node.countTags asked last =
      Node.countTags asked first +
        plan.countP fun planned => asked (annotator.anchorTag planned.id planned.keyword) := by
  induction inserted with
  | nil nodes => simp
  | cons insertedFirst _ inductionHypothesis =>
      rw [inductionHypothesis, insertedFirst.countTags_eq,
        annotator.countTagsIn_anchor onlyAnchors, List.countP_cons]
      omega

theorem textEquivalent_stripAll
    (inserted : InsertedAll annotator coverage plan first last)
    (isToken : Text.IsToken annotator.anchorClass) :
    TextEquivalent
      (Node.stripAll annotator.anchorClass last)
      (Node.stripAll annotator.anchorClass first) := by
  induction inserted with
  | nil nodes => exact .refl _
  | cons insertedFirst _ inductionHypothesis =>
      exact inductionHypothesis.trans (insertedFirst.textEquivalent_stripAll
        (annotator.hasClass_anchor isToken coverage _ _))

theorem exists_eq_element
    {tag : Tag}
    {children : List Node}
    (inserted : InsertedAll annotator coverage plan [.element tag children] last) :
    ∃ changed, last = [.element tag changed] := by
  generalize first_eq : [Node.element tag children] = first at inserted
  induction inserted generalizing children with
  | nil nodes => exact ⟨children, first_eq.symm⟩
  | cons insertedFirst _ inductionHypothesis =>
      subst first_eq
      obtain ⟨changed, rfl⟩ := insertedFirst.exists_eq_element
      exact inductionHypothesis rfl

end InsertedAll

namespace Annotator

variable (annotator : Annotator) (coverage : Coverage)

/-- Putting an anchor in divides the text node that its offset falls into. -/
theorem put_eq
    {insertion : Insertion}
    {planned : Planned}
    {surroundings : Surroundings}
    {content : String}
    {position : Nat}
    (falls : FallsInto annotator.anchorClass insertion.nodes planned.offset
      surroundings content position) :
    annotator.put coverage insertion planned =
      { nodes :=
          surroundings.fill
            (divide content position (annotator.anchor coverage planned.id planned.keyword))
        divisions := insertion.divisions ++ [⟨content, position⟩] } := by
  obtain ⟨segment, path_eq, located⟩ := falls.located
  rw [put, located]
  simp only [path_eq, divisionAt, falls.nodes_eq, insertAt_pathFrom_fill, at?_pathFrom_fill]

/-- Putting an anchor in inserts it. -/
theorem inserted_put
    {insertion : Insertion}
    {planned : Planned}
    {plan : List Planned}
    (ready : Ready annotator.anchorClass (planned :: plan) insertion.nodes) :
    Inserted annotator.anchorClass (annotator.anchor coverage planned.id planned.keyword)
      planned.offset insertion.nodes (annotator.put coverage insertion planned).nodes := by
  obtain ⟨surroundings, content, position, falls⟩ := ready.exists_fallsInto
  rw [annotator.put_eq coverage falls, falls.nodes_eq]
  exact .intro surroundings content position falls.isOpen falls.inside falls.reached

/-- The other anchors can be put in after the first one, even if that counts as prose. -/
theorem ready_put
    {insertion : Insertion}
    {planned : Planned}
    {plan : List Planned}
    (ready : Ready annotator.anchorClass (planned :: plan) insertion.nodes) :
    Ready annotator.anchorClass plan (annotator.put coverage insertion planned).nodes := by
  obtain ⟨surroundings, content, position, falls⟩ := ready.exists_fallsInto
  apply ready.tail
  rw [annotator.put_eq coverage falls, falls.proseOf_marks_divide, Text.byteSize_insertText]
  exact Nat.le_add_right _ _

/-- No anchor of a plan is left out. -/
theorem insertedAll_foldl_put
    {plan : List Planned}
    (insertion : Insertion)
    (ready : Ready annotator.anchorClass plan insertion.nodes) :
    InsertedAll annotator coverage plan insertion.nodes
      (plan.foldl (annotator.put coverage) insertion).nodes := by
  induction plan generalizing insertion with
  | nil => exact .nil _
  | cons planned plan inductionHypothesis =>
      exact .cons (annotator.inserted_put coverage ready)
        (inductionHypothesis _ (annotator.ready_put coverage ready))

/-- The later anchors can be put in after the earlier ones. -/
theorem ready_foldl_put
    {earlier later : List Planned}
    (insertion : Insertion)
    (ready : Ready annotator.anchorClass (earlier ++ later) insertion.nodes) :
    Ready annotator.anchorClass later
      (earlier.foldl (annotator.put coverage) insertion).nodes := by
  induction earlier generalizing insertion with
  | nil => exact ready
  | cons planned earlier inductionHypothesis =>
      exact inductionHypothesis _ (annotator.ready_put coverage ready)

end Annotator

end CrossReference
end Conformance
