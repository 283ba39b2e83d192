import Conformance.CrossReference.TextIndex
import Conformance.Proofs.Markup.Surroundings

/-!
# Marks

The marks of some nodes are the pieces that their text index is made from, without the paths.  Text
and anchors of an index depend on the marks alone.  A text piece of an index is a text node in
surroundings without anchors, whose path is the path of the piece.
-/

namespace Conformance
namespace CrossReference

open Markup

namespace Piece

/-- The piece without the path that leads to it. -/
def unplaced : Piece → Piece
  | .text _ content => .text [] content
  | .anchor assertion => .anchor assertion

@[simp]
theorem unplaced_below (index : Nat) (piece : Piece) :
    (piece.below index).unplaced = piece.unplaced := by
  cases piece <;> rfl

@[simp]
theorem content_unplaced (piece : Piece) : piece.unplaced.content = piece.content := by
  cases piece <;> rfl

/-- Whether the piece is a text node. -/
def isText : Piece → Bool
  | .text _ _ => true
  | .anchor _ => false

@[simp]
theorem isText_unplaced (piece : Piece) : piece.unplaced.isText = piece.isText := by
  cases piece <;> rfl

end Piece

/-- The text of some pieces. -/
def proseOf (pieces : List Piece) : List Char :=
  pieces.flatMap fun piece => piece.content.toList

@[simp]
theorem proseOf_nil : proseOf [] = [] :=
  rfl

@[simp]
theorem proseOf_cons (piece : Piece) (pieces : List Piece) :
    proseOf (piece :: pieces) = piece.content.toList ++ proseOf pieces := by
  simp [proseOf]

@[simp]
theorem proseOf_append (front back : List Piece) :
    proseOf (front ++ back) = proseOf front ++ proseOf back := by
  simp [proseOf]

@[simp]
theorem proseOf_map_unplaced (pieces : List Piece) :
    proseOf (pieces.map Piece.unplaced) = proseOf pieces := by
  simp [proseOf, List.flatMap_map]

/-- Pieces without a text node have no text. -/
theorem proseOf_eq_nil {pieces : List Piece} (noText : pieces.any Piece.isText = false) :
    proseOf pieces = [] := by
  induction pieces with
  | nil => rfl
  | cons piece pieces inductionHypothesis =>
      cases piece with
      | text path content => simp [Piece.isText] at noText
      | anchor assertion => simpa [Piece.content] using inductionHypothesis noText

theorem any_isText_of_byteSize_pos
    {pieces : List Piece}
    (positive : 0 < Text.byteSize (proseOf pieces)) :
    pieces.any Piece.isText = true := by
  rw [← Bool.not_eq_false]
  intro noText
  rw [proseOf_eq_nil noText, Text.byteSize_nil] at positive
  omega

theorem segmentsFrom_eq_nil_iff (offset : Nat) (pieces : List Piece) :
    segmentsFrom offset pieces = [] ↔ pieces.any Piece.isText = false := by
  induction pieces generalizing offset with
  | nil => simp [segmentsFrom]
  | cons piece pieces inductionHypothesis =>
      cases piece with
      | text path content => simp [segmentsFrom, Piece.isText]
      | anchor assertion => simpa [segmentsFrom, Piece.isText] using inductionHypothesis offset

/-- A segment belongs to a text piece and begins behind the text of the pieces in front of it. -/
theorem piece_of_mem_segmentsFrom
    {start : Nat}
    {pieces : List Piece}
    {segment : Segment}
    (member : segment ∈ segmentsFrom start pieces) :
    ∃ front content back, pieces = front ++ .text segment.path content :: back ∧
      segment.start = start + Text.byteSize (proseOf front) ∧
      segment.length = Text.byteSize content.toList := by
  induction pieces generalizing start with
  | nil => exact nomatch member
  | cons piece pieces inductionHypothesis =>
      cases piece with
      | anchor assertion =>
          obtain ⟨front, content, back, rfl, start_eq, length_eq⟩ := inductionHypothesis member
          exact ⟨.anchor assertion :: front, content, back, rfl, by
            simpa [Piece.content] using start_eq, length_eq⟩
      | text path content =>
          rw [segmentsFrom, List.mem_cons] at member
          obtain rfl | later := member
          · exact ⟨[], content, pieces, rfl, rfl, rfl⟩
          · obtain ⟨front, laterContent, back, rfl, start_eq, length_eq⟩ :=
              inductionHypothesis later
            exact ⟨.text path content :: front, laterContent, back, rfl, by
              simpa [Piece.content, Nat.add_assoc] using start_eq, length_eq⟩

@[simp]
theorem anchorsFrom_map_unplaced (offset : Nat) (pieces : List Piece) :
    anchorsFrom offset (pieces.map Piece.unplaced) = anchorsFrom offset pieces := by
  induction pieces generalizing offset with
  | nil => rfl
  | cons piece pieces inductionHypothesis =>
      cases piece <;> simp [Piece.unplaced, anchorsFrom, inductionHypothesis]

theorem anchorsFrom_append (offset : Nat) (front back : List Piece) :
    anchorsFrom offset (front ++ back) =
      anchorsFrom offset front ++ anchorsFrom (offset + Text.byteSize (proseOf front)) back := by
  induction front generalizing offset with
  | nil => simp [anchorsFrom]
  | cons piece front inductionHypothesis =>
      cases piece <;>
        simp [anchorsFrom, inductionHypothesis, Piece.content, Nat.add_assoc]

/-- The pieces of some nodes without their paths. -/
def marks (anchorClass : String) (nodes : List Node) : List Piece :=
  (piecesFrom anchorClass 0 nodes).map Piece.unplaced

theorem map_unplaced_piecesFrom (anchorClass : String) (index : Nat) (nodes : List Node) :
    (piecesFrom anchorClass index nodes).map Piece.unplaced = marks anchorClass nodes := by
  unfold marks
  induction nodes generalizing index with
  | nil => rfl
  | cons node nodes inductionHypothesis =>
      simp only [piecesFrom, List.map_append, List.map_map, Function.comp_def,
        Piece.unplaced_below, inductionHypothesis (index + 1), inductionHypothesis (0 + 1)]

@[simp]
theorem marks_nil (anchorClass : String) : marks anchorClass [] = [] :=
  rfl

theorem marks_cons (anchorClass : String) (node : Node) (nodes : List Node) :
    marks anchorClass (node :: nodes) =
      (piecesOfNode anchorClass node).map Piece.unplaced ++ marks anchorClass nodes := by
  rw [marks, piecesFrom, List.map_append, map_unplaced_piecesFrom]
  simp [Function.comp_def]

@[simp]
theorem marks_append (anchorClass : String) (front back : List Node) :
    marks anchorClass (front ++ back) = marks anchorClass front ++ marks anchorClass back := by
  induction front with
  | nil => rfl
  | cons node front inductionHypothesis =>
      rw [List.cons_append, marks_cons, marks_cons, inductionHypothesis, List.append_assoc]

@[simp]
theorem marks_text_cons (anchorClass : String) (content : String) (nodes : List Node) :
    marks anchorClass (.text content :: nodes) = .text [] content :: marks anchorClass nodes := by
  simp [marks_cons, piecesOfNode, Piece.unplaced]

@[simp]
theorem marks_comment_cons (anchorClass : String) (content : String) (nodes : List Node) :
    marks anchorClass (.comment content :: nodes) = marks anchorClass nodes := by
  simp [marks_cons, piecesOfNode]

theorem marks_anchor_cons
    {anchorClass : String}
    {tag : Tag}
    (isAnchor : tag.hasClass anchorClass = true)
    (children nodes : List Node) :
    marks anchorClass (.element tag children :: nodes) =
      .anchor (assertionOf? anchorClass tag) :: marks anchorClass nodes := by
  simp [marks_cons, piecesOfNode, isAnchor, Piece.unplaced]

theorem marks_element_cons
    {anchorClass : String}
    {tag : Tag}
    (isOther : tag.hasClass anchorClass = false)
    (children nodes : List Node) :
    marks anchorClass (.element tag children :: nodes) =
      marks anchorClass children ++ marks anchorClass nodes := by
  rw [marks_cons, piecesOfNode, if_neg (by simp [isOther]), map_unplaced_piecesFrom]

/-- Elements of one tag hold the same text if their children do. -/
theorem proseOf_marks_element_congr
    {anchorClass : String}
    {first second : List Node}
    (same : proseOf (marks anchorClass first) = proseOf (marks anchorClass second))
    (tag : Tag) :
    proseOf (marks anchorClass [.element tag first]) =
      proseOf (marks anchorClass [.element tag second]) := by
  by_cases isAnchor : tag.hasClass anchorClass = true
  · rw [marks_anchor_cons isAnchor, marks_anchor_cons isAnchor]
  · rw [Bool.not_eq_true] at isAnchor
    rw [marks_element_cons isAnchor, marks_element_cons isAnchor, proseOf_append, proseOf_append,
      same]

namespace TextIndex

@[simp]
theorem toList_text_ofNodes (anchorClass : String) (nodes : List Node) :
    (ofNodes anchorClass nodes).text.toList = proseOf (marks anchorClass nodes) := by
  simp [ofNodes, ofPieces, marks, proseOf, List.flatMap_map]

@[simp]
theorem anchors_ofNodes (anchorClass : String) (nodes : List Node) :
    (ofNodes anchorClass nodes).anchors = anchorsFrom 0 (marks anchorClass nodes) := by
  simp [ofNodes, ofPieces, marks]

/-- An offset is located exactly if there is a text node. -/
theorem isSome_locate?_ofNodes (anchorClass : String) (nodes : List Node) (offset : Nat) :
    ((ofNodes anchorClass nodes).locate? offset).isSome =
      (marks anchorClass nodes).any Piece.isText := by
  have any_eq :
      (marks anchorClass nodes).any Piece.isText =
        (piecesFrom anchorClass 0 nodes).any Piece.isText := by
    simp [marks, Function.comp_def]
  rw [any_eq]
  cases segments : segmentsFrom 0 (piecesFrom anchorClass 0 nodes) with
  | nil =>
      rw [(segmentsFrom_eq_nil_iff 0 _).1 segments]
      simp [locate?, ofNodes, ofPieces, segments]
  | cons segment rest =>
      have holdsText : (piecesFrom anchorClass 0 nodes).any Piece.isText = true := by
        rw [← Bool.not_eq_false, ← segmentsFrom_eq_nil_iff 0, segments]
        simp
      rw [holdsText]
      cases first : (segment :: rest).find? fun segment => decide (offset < segment.finish) <;>
        simp [locate?, ofNodes, ofPieces, segments, first, List.getLast?_cons]

/-- The text of an index depends on the marks alone. -/
theorem text_ofNodes_eq
    {anchorClass : String}
    {first second : List Node}
    (same : proseOf (marks anchorClass first) = proseOf (marks anchorClass second)) :
    (ofNodes anchorClass first).text = (ofNodes anchorClass second).text := by
  apply String.toList_injective
  simp [same]

end TextIndex

end CrossReference

namespace Markup
namespace Surroundings

open CrossReference

/-- The marks before the place that surroundings leave. -/
def marksBefore (anchorClass : String) : Surroundings → List Piece
  | .siblings front _ => marks anchorClass front
  | .inside front _ inner _ => marks anchorClass front ++ inner.marksBefore anchorClass

/-- The marks behind the place that surroundings leave. -/
def marksBehind (anchorClass : String) : Surroundings → List Piece
  | .siblings _ back => marks anchorClass back
  | .inside _ _ inner back => inner.marksBehind anchorClass ++ marks anchorClass back

/-- Open surroundings add their marks before and behind those of the siblings. -/
theorem marks_fill
    {anchorClass : String}
    {surroundings : Surroundings}
    (isOpen : surroundings.IsOpen anchorClass)
    (nodes : List Node) :
    marks anchorClass (surroundings.fill nodes) =
      surroundings.marksBefore anchorClass ++ marks anchorClass nodes ++
        surroundings.marksBehind anchorClass := by
  induction surroundings with
  | siblings front back => simp [fill, marksBefore, marksBehind]
  | inside front tag inner back inductionHypothesis =>
      obtain ⟨isOther, innerOpen⟩ := isOpen
      simp [fill, marksBefore, marksBehind, marks_element_cons isOther,
        inductionHypothesis innerOpen]

@[simp]
theorem isOpen_behind {anchorClass : String} {surroundings : Surroundings} {earlier : List Node} :
    (surroundings.behind earlier).IsOpen anchorClass ↔ surroundings.IsOpen anchorClass := by
  cases surroundings <;> rfl

theorem marksBefore_behind
    (anchorClass : String)
    (surroundings : Surroundings)
    (earlier : List Node) :
    (surroundings.behind earlier).marksBefore anchorClass =
      marks anchorClass earlier ++ surroundings.marksBefore anchorClass := by
  cases surroundings <;> simp [behind, marksBefore]

theorem marksBehind_behind
    (anchorClass : String)
    (surroundings : Surroundings)
    (earlier : List Node) :
    (surroundings.behind earlier).marksBehind anchorClass =
      surroundings.marksBehind anchorClass := by
  cases surroundings <;> rfl

end Surroundings
end Markup

namespace CrossReference

open Markup

/-- A member of two lists one after the other stands in the first or in the second. -/
theorem append_eq_append_cons
    {Item : Type}
    {first second front back : List Item}
    {item : Item}
    (parts : first ++ second = front ++ item :: back) :
    (∃ rest, first = front ++ item :: rest ∧ back = rest ++ second) ∨
      ∃ rest, front = first ++ rest ∧ second = rest ++ item :: back := by
  obtain ⟨rest, front_eq, second_eq⟩ | ⟨rest, first_eq, back_eq⟩ :=
    List.append_eq_append_iff.1 parts
  · exact .inr ⟨rest, front_eq, second_eq⟩
  · cases rest with
    | nil => exact .inr ⟨[], by simpa using first_eq.symm, by simpa using back_eq.symm⟩
    | cons member rest =>
        obtain ⟨rfl, rfl⟩ := List.cons.inj back_eq
        exact .inl ⟨rest, first_eq, rfl⟩

mutual

theorem surroundings_of_piecesOfNode
    {anchorClass : String} :
    (node : Node) → {front back : List Piece} → {path : List Nat} → {content : String} →
    piecesOfNode anchorClass node = front ++ .text path content :: back →
      (node = .text content ∧ path = [] ∧ front = [] ∧ back = []) ∨
      ∃ (tag : Tag) (inner : Surroundings), node = .element tag (inner.fill [.text content]) ∧
        tag.hasClass anchorClass = false ∧ inner.IsOpen anchorClass ∧
        path = inner.pathFrom 0 ∧
        inner.marksBefore anchorClass = front.map Piece.unplaced ∧
        inner.marksBehind anchorClass = back.map Piece.unplaced
  | .text given, front, back, path, content, parts => by
      rw [piecesOfNode, List.singleton_eq_append_iff] at parts
      simp only [List.cons.injEq, Piece.text.injEq, reduceCtorEq, and_false, or_false] at parts
      obtain ⟨rfl, ⟨rfl, rfl⟩, rfl⟩ := parts
      exact .inl ⟨rfl, rfl, rfl, rfl⟩
  | .comment given, front, back, path, content, parts => by
      simp [piecesOfNode] at parts
  | .element tag children, front, back, path, content, parts => by
      by_cases isAnchor : tag.hasClass anchorClass = true
      · rw [piecesOfNode, if_pos isAnchor, List.singleton_eq_append_iff] at parts
        simp at parts
      · rw [piecesOfNode, if_neg isAnchor] at parts
        obtain ⟨inner, innerOpen, rfl, isPath, before, behind⟩ :=
          surroundings_of_piecesFrom 0 children parts
        exact .inr ⟨tag, inner, rfl, by simpa using isAnchor, innerOpen, isPath, before, behind⟩

/-- A text piece is a text node in open surroundings, whose path and marks are those of the
pieces around it. -/
theorem surroundings_of_piecesFrom
    {anchorClass : String}
    (index : Nat) :
    (nodes : List Node) → {front back : List Piece} → {path : List Nat} → {content : String} →
    piecesFrom anchorClass index nodes = front ++ .text path content :: back →
      ∃ surroundings : Surroundings, surroundings.IsOpen anchorClass ∧
        nodes = surroundings.fill [.text content] ∧
        path = surroundings.pathFrom index ∧
        surroundings.marksBefore anchorClass = front.map Piece.unplaced ∧
        surroundings.marksBehind anchorClass = back.map Piece.unplaced
  | [], front, back, path, content, parts => by
      simp [piecesFrom] at parts
  | node :: rest, front, back, path, content, parts => by
      rw [piecesFrom] at parts
      obtain ⟨later, inNode, rfl⟩ | ⟨earlier, rfl, inRest⟩ := append_eq_append_cons parts
      · -- The piece belongs to the first node, so its path begins with the index.
        obtain ⟨nodeFront, nodeLater, pieces_eq, rfl, mapped⟩ := List.map_eq_append_iff.1 inNode
        obtain ⟨piece, nodeBack, rfl, piece_eq, rfl⟩ := List.map_eq_cons_iff.1 mapped
        cases piece with
        | anchor assertion => cases piece_eq
        | text innerPath given =>
            cases piece_eq
            obtain ⟨rfl, rfl, rfl, rfl⟩ |
              ⟨tag, inner, rfl, isOther, innerOpen, rfl, before, behind⟩ :=
              surroundings_of_piecesOfNode node pieces_eq
            · refine ⟨.siblings [] rest, trivial, rfl, rfl, rfl, ?_⟩
              simp [Surroundings.marksBehind, map_unplaced_piecesFrom]
            · refine ⟨.inside [] tag inner rest, ⟨isOther, innerOpen⟩, rfl, rfl, ?_, ?_⟩
              · simp [Surroundings.marksBefore, before, Function.comp_def]
              · simp [Surroundings.marksBehind, behind, Function.comp_def,
                  map_unplaced_piecesFrom]
      · obtain ⟨inner, innerOpen, rfl, rfl, before, behind⟩ :=
          surroundings_of_piecesFrom (index + 1) rest inRest
        refine ⟨inner.behind [node], by simpa using innerOpen, by simp,
          (inner.pathFrom_behind index node).symm, ?_, ?_⟩
        · rw [Surroundings.marksBefore_behind, before]
          simp [marks_cons, Function.comp_def]
        · rw [Surroundings.marksBehind_behind, behind]

end

end CrossReference
end Conformance
