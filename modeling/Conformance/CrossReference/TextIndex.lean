import Conformance.Markup.Tree
import Conformance.Text.ByteSize
import Conformance.Text.Search

/-!
# Text indices

The text of some sibling nodes as one string, with a map back to the text nodes that it comes
from.  Anchors, the elements of a certain class, contribute no text, so that inserting one moves
no position.  Positions count bytes.
-/

namespace Conformance
namespace CrossReference

open Markup

/-- What the text of some nodes is put together from. -/
inductive Piece where
  /-- The content of the text node that a path of child indices leads to. -/
  | text (path : List Nat) (content : String)
  /-- An anchor, with the id of its assertion if it has one. -/
  | anchor (assertion : Option String)
deriving DecidableEq, Inhabited, Repr

namespace Piece

/-- The piece as it is found below the child with that index. -/
def below (index : Nat) : Piece → Piece
  | .text path content => .text (index :: path) content
  | .anchor assertion => .anchor assertion

/-- The text that a piece contributes. -/
def content : Piece → String
  | .text _ content => content
  | .anchor _ => ""

end Piece

/-- The id of the assertion that an anchor belongs to: its `id` attribute without the class and
the dot in front. -/
def assertionOf? (anchorClass : String) (tag : Tag) : Option String :=
  (tag.attribute? "id").bind fun id =>
    (Text.after? (anchorClass.toList ++ ['.']) id.toList).map String.ofList

mutual

/-- The pieces of one node. -/
def piecesOfNode (anchorClass : String) : Node → List Piece
  | .text content => [.text [] content]
  | .comment _ => []
  | .element tag children =>
      if tag.hasClass anchorClass then [.anchor (assertionOf? anchorClass tag)]
      else piecesFrom anchorClass 0 children

/-- The pieces of nodes, the first of which has the given index among its siblings. -/
def piecesFrom (anchorClass : String) (index : Nat) : List Node → List Piece
  | [] => []
  | node :: rest =>
      (piecesOfNode anchorClass node).map (Piece.below index) ++
        piecesFrom anchorClass (index + 1) rest

end

/-- The slice of the text that one text node holds. -/
structure Segment where
  /-- The child indices that lead to the text node. -/
  path : List Nat
  /-- The position of its first byte. -/
  start : Nat
  /-- Its length in bytes. -/
  length : Nat
deriving DecidableEq, Inhabited, Repr

/-- The position behind the last byte of a segment. -/
def Segment.finish (segment : Segment) : Nat :=
  segment.start + segment.length

/-- An anchor that stands in the text. -/
structure AnchorSite where
  /-- The position in the text. -/
  offset : Nat
  /-- The assertion that it belongs to, if it names one. -/
  assertion : Option String
deriving DecidableEq, Inhabited, Repr

/-- The segments of pieces that begin at an offset of the text. -/
def segmentsFrom (offset : Nat) : List Piece → List Segment
  | [] => []
  | .text path content :: rest =>
      let length := Text.byteSize content.toList
      ⟨path, offset, length⟩ :: segmentsFrom (offset + length) rest
  | .anchor _ :: rest => segmentsFrom offset rest

/-- The anchors among pieces that begin at an offset of the text. -/
def anchorsFrom (offset : Nat) : List Piece → List AnchorSite
  | [] => []
  | .text _ content :: rest => anchorsFrom (offset + Text.byteSize content.toList) rest
  | .anchor assertion :: rest => ⟨offset, assertion⟩ :: anchorsFrom offset rest

/-- The text of some nodes and where it comes from. -/
structure TextIndex where
  /-- The text. -/
  text : String
  /-- The text nodes in document order. -/
  segments : List Segment
  /-- The anchors in document order. -/
  anchors : List AnchorSite
deriving DecidableEq, Inhabited, Repr

namespace TextIndex

/-- The index of pieces. -/
def ofPieces (pieces : List Piece) : TextIndex where
  text := String.join (pieces.map Piece.content)
  segments := segmentsFrom 0 pieces
  anchors := anchorsFrom 0 pieces

/-- The index of some sibling nodes. -/
def ofNodes (anchorClass : String) (nodes : List Node) : TextIndex :=
  ofPieces (piecesFrom anchorClass 0 nodes)

/-- The first anchor at an offset. -/
def anchorAt? (index : TextIndex) (offset : Nat) : Option AnchorSite :=
  index.anchors.find? fun site => site.offset == offset

/-- The text node at an offset and the position inside it.  Between two text nodes the later one
is meant, and the end of the text belongs to the last one. -/
def locate? (index : TextIndex) (offset : Nat) : Option (Segment × Nat) :=
  let segment? :=
    (index.segments.find? fun segment => decide (offset < segment.finish)) <|>
      index.segments.getLast?
  segment?.map fun segment => (segment, min (offset - segment.start) segment.length)

end TextIndex

end CrossReference
end Conformance
