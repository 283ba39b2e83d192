import Conformance.Proofs.CrossReference.Marks

/-!
# Text indices as maps

The segments of a text index divide its text in the order of the document: behind every segment
comes the next one, and each segment holds the content of the text node that its path leads to.
The main statement is that an index is an exact map of the text outside of anchors, and that every
offset of the text is located where the map says.
-/

namespace Conformance
namespace CrossReference

open Markup

/-! ## Text outside of anchors -/

/-- A path leads to a text node, and no node on the way there has the class of anchors. -/
structure IsProse
    (anchorClass : String)
    (nodes : List Node)
    (path : List Nat)
    (content : String) : Prop where
  found : Node.at? path nodes = some (.text content)
  outside : ∀ front, front <+: path → ∀ node, Node.at? front nodes = some node →
    node.hasClass anchorClass = false

section

variable {anchorClass content : String} {nodes : List Node} {path : List Nat} {place : Nat}

theorem not_isProse_nil : ¬ IsProse anchorClass nodes [] content := by
  rintro ⟨found, -⟩
  simp at found

/-- Prose is a text node among the nodes or prose inside one of the elements that are no anchors. -/
theorem isProse_cons_iff :
    IsProse anchorClass nodes (place :: path) content ↔
      (nodes[place]? = some (.text content) ∧ path = []) ∨
      ∃ tag children, nodes[place]? = some (.element tag children) ∧
        tag.hasClass anchorClass = false ∧ IsProse anchorClass children path content := by
  constructor
  · rintro ⟨found, outside⟩
    obtain ⟨rfl, child⟩ | ⟨tag, children, child, inside⟩ := Node.at?_cons_eq_some_iff.1 found
    · exact .inl ⟨child, rfl⟩
    · refine .inr ⟨tag, children, child, ?_, inside, fun front isFront node reached => ?_⟩
      · exact outside [place] (List.cons_prefix_cons.2 ⟨rfl, List.nil_prefix⟩) _ child
      · exact outside (place :: front) (List.cons_prefix_cons.2 ⟨rfl, isFront⟩) node
          (Node.at?_cons_eq_some_iff.2 (.inr ⟨tag, children, child, reached⟩))
  · rintro (⟨child, rfl⟩ | ⟨tag, children, child, isOther, found, outside⟩)
    · refine ⟨child, fun front isFront node reached => ?_⟩
      obtain rfl | rfl : front = [] ∨ front = [place] := by
        simpa [List.prefix_cons_iff] using isFront
      · simp at reached
      · obtain rfl := Option.some.inj (reached.symm.trans child)
        rfl
    · refine ⟨Node.at?_cons_eq_some_iff.2 (.inr ⟨tag, children, child, found⟩),
        fun front isFront node reached => ?_⟩
      obtain rfl | ⟨rest, rfl, isRest⟩ := List.prefix_cons_iff.1 isFront
      · simp at reached
      · obtain ⟨rfl, ends⟩ | ⟨_, _, goesOn, inside⟩ := Node.at?_cons_eq_some_iff.1 reached
        · obtain rfl := Option.some.inj (ends.symm.trans child)
          exact isOther
        · cases goesOn.symm.trans child
          exact outside rest isRest node inside

/-- The first node is reached with the index zero. -/
theorem isProse_zero_cons_iff {node : Node} :
    IsProse anchorClass (node :: nodes) (0 :: path) content ↔
      (node = .text content ∧ path = []) ∨
      ∃ tag children, node = .element tag children ∧ tag.hasClass anchorClass = false ∧
        IsProse anchorClass children path content := by
  simp [isProse_cons_iff]

theorem isProse_succ_cons_iff {node : Node} :
    IsProse anchorClass (node :: nodes) ((place + 1) :: path) content ↔
      IsProse anchorClass nodes (place :: path) content := by
  simp [isProse_cons_iff]

end

/-! ## Pieces and prose -/

theorem text_mem_map_below_iff
    {content : String}
    {pieces : List Piece}
    {index : Nat}
    {path : List Nat} :
    .text path content ∈ pieces.map (Piece.below index) ↔
      ∃ rest, path = index :: rest ∧ .text rest content ∈ pieces := by
  rw [List.mem_map]
  constructor
  · rintro ⟨piece, member, below⟩
    cases piece with
    | text rest given =>
        cases below
        exact ⟨rest, rfl, member⟩
    | anchor assertion => exact nomatch below
  · rintro ⟨rest, rfl, member⟩
    exact ⟨_, member, rfl⟩

mutual

theorem text_mem_piecesOfNode_iff
    {anchorClass content : String} :
    (node : Node) → (path : List Nat) →
      (.text path content ∈ piecesOfNode anchorClass node ↔
        (node = .text content ∧ path = []) ∨
        ∃ tag children, node = .element tag children ∧ tag.hasClass anchorClass = false ∧
          IsProse anchorClass children path content)
  | .text given, path => by
      simp only [piecesOfNode, List.mem_singleton, Piece.text.injEq, Node.text.injEq, reduceCtorEq,
        false_and, exists_false, or_false]
      exact ⟨fun ⟨isEmpty, same⟩ => ⟨same.symm, isEmpty⟩, fun ⟨same, isEmpty⟩ =>
        ⟨isEmpty, same.symm⟩⟩
  | .comment given, path => by
      simp [piecesOfNode]
  | .element tag children, path => by
      by_cases isAnchor : tag.hasClass anchorClass = true
      · simp [piecesOfNode, isAnchor]
      · rw [piecesOfNode, if_neg isAnchor, text_mem_piecesFrom_iff 0 children path]
        rw [Bool.not_eq_true] at isAnchor
        simp only [reduceCtorEq, false_and, false_or, Node.element.injEq, Nat.zero_add]
        constructor
        · rintro ⟨place, rest, rfl, isProse⟩
          exact ⟨tag, children, ⟨rfl, rfl⟩, isAnchor, isProse⟩
        · rintro ⟨_, _, ⟨rfl, rfl⟩, -, isProse⟩
          cases path with
          | nil => exact absurd isProse not_isProse_nil
          | cons place rest => exact ⟨place, rest, rfl, isProse⟩

/-- The text pieces of some nodes are their prose. -/
theorem text_mem_piecesFrom_iff
    {anchorClass content : String}
    (index : Nat) :
    (nodes : List Node) → (path : List Nat) →
      (.text path content ∈ piecesFrom anchorClass index nodes ↔
        ∃ place rest, path = (index + place) :: rest ∧
          IsProse anchorClass nodes (place :: rest) content)
  | [], path => by
      simp [piecesFrom, isProse_cons_iff]
  | node :: nodes, path => by
      rw [piecesFrom, List.mem_append, text_mem_map_below_iff,
        text_mem_piecesFrom_iff (index + 1) nodes path]
      constructor
      · rintro (⟨rest, rfl, member⟩ | ⟨place, rest, rfl, isProse⟩)
        · exact ⟨0, rest, rfl, isProse_zero_cons_iff.2
            ((text_mem_piecesOfNode_iff node rest).1 member)⟩
        · refine ⟨place + 1, rest, ?_, isProse_succ_cons_iff.2 isProse⟩
          rw [Nat.add_assoc, Nat.add_comm 1 place]
      · rintro ⟨place, rest, rfl, isProse⟩
        cases place with
        | zero => exact .inl ⟨rest, rfl, (text_mem_piecesOfNode_iff node rest).2
            (isProse_zero_cons_iff.1 isProse)⟩
        | succ place =>
            refine .inr ⟨place, rest, ?_, isProse_succ_cons_iff.1 isProse⟩
            rw [Nat.add_assoc, Nat.add_comm 1 place]

end

theorem text_mem_piecesFrom_zero_iff
    {anchorClass content : String}
    {nodes : List Node}
    {path : List Nat} :
    .text path content ∈ piecesFrom anchorClass 0 nodes ↔
      IsProse anchorClass nodes path content := by
  rw [text_mem_piecesFrom_iff]
  simp only [Nat.zero_add]
  constructor
  · rintro ⟨place, rest, rfl, isProse⟩
    exact isProse
  · intro isProse
    cases path with
    | nil => exact absurd isProse not_isProse_nil
    | cons place rest => exact ⟨place, rest, rfl, isProse⟩

/-! ## Document order -/

/-- The path of a piece that is a text node. -/
def Piece.path? : Piece → Option (List Nat)
  | .text path _ => some path
  | .anchor _ => none

theorem Piece.path?_below (index : Nat) (piece : Piece) :
    (piece.below index).path? = piece.path?.map (index :: ·) := by
  cases piece <;> rfl

/-- The paths of the text nodes among some pieces. -/
def pathsOf (pieces : List Piece) : List (List Nat) :=
  pieces.filterMap Piece.path?

theorem mem_pathsOf_iff {pieces : List Piece} {path : List Nat} :
    path ∈ pathsOf pieces ↔ ∃ content, .text path content ∈ pieces := by
  rw [pathsOf, List.mem_filterMap]
  constructor
  · rintro ⟨piece, member, isPath⟩
    cases piece with
    | text given content =>
        cases isPath
        exact ⟨content, member⟩
    | anchor assertion => exact nomatch isPath
  · rintro ⟨content, member⟩
    exact ⟨_, member, rfl⟩

theorem pathsOf_map_below (index : Nat) (pieces : List Piece) :
    pathsOf (pieces.map (Piece.below index)) = (pathsOf pieces).map (index :: ·) := by
  simp only [pathsOf, List.filterMap_map, List.map_filterMap, Function.comp_def, Piece.path?_below]

mutual

theorem pairwise_lt_pathsOf_piecesOfNode
    (anchorClass : String) :
    (node : Node) → (pathsOf (piecesOfNode anchorClass node)).Pairwise (· < ·)
  | .text content => List.pairwise_singleton _ _
  | .comment content => List.Pairwise.nil
  | .element tag children => by
      rw [piecesOfNode]
      split
      · exact List.Pairwise.nil
      · exact pairwise_lt_pathsOf_piecesFrom anchorClass 0 children

/-- The text pieces of some nodes stand in the order of the document. -/
theorem pairwise_lt_pathsOf_piecesFrom
    (anchorClass : String)
    (index : Nat) :
    (nodes : List Node) → (pathsOf (piecesFrom anchorClass index nodes)).Pairwise (· < ·)
  | [] => List.Pairwise.nil
  | node :: nodes => by
      rw [piecesFrom, pathsOf, List.filterMap_append, ← pathsOf, ← pathsOf, pathsOf_map_below,
        List.pairwise_append]
      refine ⟨?_, pairwise_lt_pathsOf_piecesFrom anchorClass (index + 1) nodes, ?_⟩
      · rw [List.pairwise_map]
        refine (pairwise_lt_pathsOf_piecesOfNode anchorClass node).imp fun earlier => ?_
        exact List.cons_lt_cons_iff.2 (.inr ⟨rfl, earlier⟩)
      · intro path first other later
        obtain ⟨rest, -, rfl⟩ := List.mem_map.1 first
        obtain ⟨content, member⟩ := mem_pathsOf_iff.1 later
        obtain ⟨place, laterRest, rfl, -⟩ := (text_mem_piecesFrom_iff _ _ _).1 member
        exact List.cons_lt_cons_iff.2 (.inl (by omega))

end

/-! ## Division of the text -/

/-- The segments divide what lies between two offsets, without gap or overlap. -/
def Tiles : Nat → List Segment → Nat → Prop
  | start, [], finish => start = finish
  | start, segment :: rest, finish => segment.start = start ∧ Tiles segment.finish rest finish

/-- The segments of pieces divide the text of the pieces. -/
theorem tiles_segmentsFrom (start : Nat) (pieces : List Piece) :
    Tiles start (segmentsFrom start pieces) (start + Text.byteSize (proseOf pieces)) := by
  induction pieces generalizing start with
  | nil => simp [segmentsFrom, Tiles]
  | cons piece pieces inductionHypothesis =>
      cases piece with
      | text path content =>
          refine ⟨rfl, ?_⟩
          simpa [Segment.finish, Piece.content, Nat.add_assoc] using
            inductionHypothesis (start + Text.byteSize content.toList)
      | anchor assertion => simpa [segmentsFrom, Piece.content] using inductionHypothesis start

theorem map_path_segmentsFrom (start : Nat) (pieces : List Piece) :
    (segmentsFrom start pieces).map Segment.path = pathsOf pieces := by
  induction pieces generalizing start with
  | nil => rfl
  | cons piece pieces inductionHypothesis =>
      cases piece with
      | text path content => exact congrArg (path :: ·) (inductionHypothesis _)
      | anchor assertion => exact inductionHypothesis start

namespace Tiles

variable {start finish offset : Nat} {segments : List Segment} {segment : Segment}

theorem start_le_finish (tiles : Tiles start segments finish) : start ≤ finish := by
  induction segments generalizing start with
  | nil => exact Nat.le_of_eq tiles
  | cons segment segments inductionHypothesis =>
      obtain ⟨rfl, tilesRest⟩ := tiles
      have := inductionHypothesis tilesRest
      simp only [Segment.finish] at this
      omega

/-- The last segment ends where the text ends. -/
theorem finish_eq_of_getLast?
    (tiles : Tiles start segments finish)
    (last : segments.getLast? = some segment) :
    segment.finish = finish := by
  induction segments generalizing start with
  | nil => exact nomatch last
  | cons first segments inductionHypothesis =>
      obtain ⟨-, tilesRest⟩ := tiles
      cases segments with
      | nil =>
          cases last
          exact tilesRest
      | cons second segments =>
          rw [List.getLast?_cons_cons] at last
          exact inductionHypothesis tilesRest last

/-- The first segment that ends behind an offset holds it. -/
theorem start_le_of_find?
    (tiles : Tiles start segments finish)
    (reached : start ≤ offset)
    (first : segments.find? (fun segment => decide (offset < segment.finish)) = some segment) :
    segment.start ≤ offset := by
  induction segments generalizing start with
  | nil => exact nomatch first
  | cons other segments inductionHypothesis =>
      obtain ⟨rfl, tilesRest⟩ := tiles
      rw [List.find?_cons] at first
      by_cases inside : offset < other.finish
      · simp only [inside, decide_true, Option.some.injEq] at first
        subst first
        exact reached
      · simp only [inside, decide_false] at first
        exact inductionHypothesis tilesRest (Nat.not_lt.1 inside) first

/-- No segment ends behind the end of the text. -/
theorem finish_le_of_mem
    (tiles : Tiles start segments finish)
    (member : segment ∈ segments) :
    segment.finish ≤ finish := by
  induction segments generalizing start with
  | nil => exact nomatch member
  | cons first segments inductionHypothesis =>
      obtain ⟨-, tilesRest⟩ := tiles
      obtain rfl | later := List.mem_cons.1 member
      · exact tilesRest.start_le_finish
      · exact inductionHypothesis tilesRest later

end Tiles

namespace TextIndex

variable {index : TextIndex} {finish offset position : Nat} {segment : Segment}

theorem locate?_eq_none_iff : index.locate? offset = none ↔ index.segments = [] := by
  cases first : index.segments.find? fun segment => decide (offset < segment.finish) with
  | some holding => simp [locate?, first, List.ne_nil_of_mem (List.mem_of_find?_eq_some first)]
  | none => simp [locate?, first]

/-- An offset of a text that is divided by the segments is located in the segment that holds it,
and its end in the last one. -/
theorem locate?_of_tiles
    (tiles : Tiles 0 index.segments finish)
    (bounded : offset ≤ finish)
    (located : index.locate? offset = some (segment, position)) :
    segment ∈ index.segments ∧ segment.start + position = offset ∧
      (offset < finish → position < segment.length) ∧
      (offset = finish → index.segments.getLast? = some segment) := by
  simp only [locate?, Option.map_eq_some_iff, Prod.mk.injEq] at located
  obtain ⟨found, foundIn, rfl, rfl⟩ := located
  cases first : index.segments.find? fun segment => decide (offset < segment.finish) with
  | some holding =>
      rw [first] at foundIn
      cases foundIn
      have reached := tiles.start_le_of_find? (Nat.zero_le offset) first
      have member := List.mem_of_find?_eq_some first
      have inside : offset < found.finish := by simpa using List.find?_some first
      have within := tiles.finish_le_of_mem member
      simp only [Segment.finish] at inside within
      exact ⟨member, by omega, by omega, by omega⟩
  | none =>
      rw [first] at foundIn
      have last : index.segments.getLast? = some found := foundIn
      have member := List.mem_of_getLast? last
      have passed : found.finish ≤ offset := by simpa using List.find?_eq_none.1 first found member
      have finish_eq := tiles.finish_eq_of_getLast? last
      simp only [Segment.finish] at passed finish_eq
      exact ⟨member, by omega, by omega, fun _ => last⟩

end TextIndex

/-! ## The map -/

/-- The text of an index is that of the nodes without the anchors. -/
theorem proseOf_marks_eq_textContents_stripAll (anchorClass : String) :
    (nodes : List Node) →
      proseOf (marks anchorClass nodes) =
        (Node.textContents (Node.stripAll anchorClass nodes)).toList
  | [] => by simp [Node.stripAll, Node.textContents]
  | .text content :: rest => by
      simp [Node.stripAll, Node.strip, Node.hasClass, Node.textContents, Node.textContent,
        Piece.content, proseOf_marks_eq_textContents_stripAll anchorClass rest]
  | .comment content :: rest => by
      simp [Node.stripAll, Node.strip, Node.hasClass, Node.textContents, Node.textContent,
        proseOf_marks_eq_textContents_stripAll anchorClass rest]
  | .element tag children :: rest => by
      by_cases isAnchor : tag.hasClass anchorClass = true
      · simp [marks_anchor_cons isAnchor, Node.stripAll, Node.hasClass, isAnchor, Piece.content,
          proseOf_marks_eq_textContents_stripAll anchorClass rest]
      · rw [Bool.not_eq_true] at isAnchor
        simp [marks_element_cons isAnchor, Node.stripAll, Node.strip, Node.hasClass, isAnchor,
          Node.textContents, Node.textContent,
          proseOf_marks_eq_textContents_stripAll anchorClass children,
          proseOf_marks_eq_textContents_stripAll anchorClass rest]

namespace TextIndex

variable {anchorClass : String} {nodes : List Node}

/-- An index is an exact map of the text outside of anchors.  Its segments are the text nodes there,
in document order; they divide the text without gap or overlap, and each holds the content of its
text node.  An offset of the text is located in the segment that holds it, and the end of the text
in the last segment, unless there are no text nodes. -/
theorem ofNodes_isExact (anchorClass : String) (nodes : List Node) :
    let index := ofNodes anchorClass nodes
    let size := Text.byteSize index.text.toList
    index.text = Node.textContents (Node.stripAll anchorClass nodes) ∧
    Tiles 0 index.segments size ∧
    (∀ segment ∈ index.segments, ∃ front content back,
      Node.at? segment.path nodes = some (.text content) ∧
      index.text.toList = front ++ content.toList ++ back ∧
      segment.start = Text.byteSize front ∧
      segment.length = Text.byteSize content.toList) ∧
    (index.segments.map Segment.path).Pairwise (· < ·) ∧
    (∀ path, path ∈ index.segments.map Segment.path ↔
      ∃ content, IsProse anchorClass nodes path content) ∧
    ∀ offset, offset ≤ size →
      (index.locate? offset = none ↔ ∀ path content, ¬ IsProse anchorClass nodes path content) ∧
      ∀ segment position, index.locate? offset = some (segment, position) →
        segment ∈ index.segments ∧ segment.start + position = offset ∧
        (offset < size → position < segment.length) ∧
        (offset = size → index.segments.getLast? = some segment) := by
  intro index size
  have prose_eq : index.text.toList = proseOf (piecesFrom anchorClass 0 nodes) := by
    rw [toList_text_ofNodes, marks, proseOf_map_unplaced]
  have tiles : Tiles 0 index.segments size := by
    have divided := tiles_segmentsFrom 0 (piecesFrom anchorClass 0 nodes)
    rw [Nat.zero_add, ← prose_eq] at divided
    exact divided
  have paths_eq : index.segments.map Segment.path = pathsOf (piecesFrom anchorClass 0 nodes) :=
    map_path_segmentsFrom 0 _
  have isPath_iff : ∀ path, path ∈ index.segments.map Segment.path ↔
      ∃ content, IsProse anchorClass nodes path content := by
    intro path
    rw [paths_eq, mem_pathsOf_iff]
    exact exists_congr fun content => text_mem_piecesFrom_zero_iff
  refine ⟨?_, tiles, ?_, ?_, isPath_iff, fun offset bounded => ⟨?_, fun segment position =>
    locate?_of_tiles tiles bounded⟩⟩
  · apply String.toList_injective
    rw [toList_text_ofNodes, proseOf_marks_eq_textContents_stripAll]
  · intro segment member
    obtain ⟨front, content, back, pieces_eq, start_eq, length_eq⟩ :=
      piece_of_mem_segmentsFrom member
    have isPiece : Piece.text segment.path content ∈ piecesFrom anchorClass 0 nodes := by
      simp [pieces_eq]
    refine ⟨proseOf front, content, proseOf back, ?_, ?_, ?_, length_eq⟩
    · exact (text_mem_piecesFrom_zero_iff.1 isPiece).found
    · rw [prose_eq, pieces_eq]
      simp [Piece.content]
    · simpa using start_eq
  · rw [paths_eq]
    exact pairwise_lt_pathsOf_piecesFrom anchorClass 0 nodes
  · rw [locate?_eq_none_iff]
    constructor
    · intro noSegments path content isProse
      have member := (isPath_iff path).2 ⟨content, isProse⟩
      simp [noSegments] at member
    · intro noProse
      rw [List.eq_nil_iff_forall_not_mem]
      intro segment member
      obtain ⟨content, isProse⟩ := (isPath_iff segment.path).1 (List.mem_map_of_mem member)
      exact noProse _ content isProse

/-- An anchor and an empty text node stand in the text, and the end of the text belongs to a text
node that is empty. -/
theorem ofNodes_isExact_paragraph :
    let nodes : List Node :=
      [.element ⟨"p", []⟩
        [.text "Né ", .element ⟨"code", []⟩ [.text "arc", .comment "call", .text ""],
          .element ⟨"span", [("class", "kw refs")]⟩ [.text "#"], .text "."],
        .text ""]
    let index := ofNodes "refs" nodes
    index.text = "Né arc." ∧ Tiles 0 index.segments 8 ∧
      index.locate? 7 = some (⟨[0, 3], 7, 1⟩, 0) ∧
      index.locate? 8 = some (⟨[1], 8, 0⟩, 0) ∧ index.segments.getLast? = some ⟨[1], 8, 0⟩ := by
  intro nodes index
  have size_eq : Text.byteSize index.text.toList = 8 := by decide +kernel
  have between : index.locate? 7 = some (⟨[0, 3], 7, 1⟩, 0) := by decide +kernel
  have atEnd : index.locate? 8 = some (⟨[1], 8, 0⟩, 0) := by decide +kernel
  obtain ⟨text_eq, tiles, -, -, -, locates⟩ := ofNodes_isExact "refs" nodes
  have isLast := ((locates 8 (Nat.le_of_eq size_eq.symm)).2 _ _ atEnd).2.2.2 size_eq.symm
  rw [size_eq] at tiles
  exact ⟨text_eq.trans (by decide +kernel), tiles, between, atEnd, isLast⟩

end TextIndex

end CrossReference
end Conformance
