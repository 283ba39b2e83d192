import Conformance.Coverage
import Conformance.CrossReference.Findings
import Conformance.CrossReference.TextIndex
import Conformance.Keyword

/-!
# Anchors

The element that marks the place of an assertion in the prose, with links to the tests that claim
the assertion, and its insertion in the middle of a text node.
-/

namespace Conformance
namespace CrossReference

open Markup

/-- What the annotation of a document depends on. -/
structure Annotator where
  /-- The class of anchors, with which their ids begin as well. -/
  anchorClass : String := "testrefs"
  /-- The class of sections whose children are looked at one by one. -/
  implementationClass : String := "impl"
  /-- What is added to the name of a test for a link to it. -/
  testLinkSuffix : String := ".html"
deriving DecidableEq, Inhabited, Repr

namespace Annotator

/-- The link to a test, and a space. -/
def testLink (annotator : Annotator) (test : String) : List Node :=
  [.element { name := "a", attributes := [("href", test ++ annotator.testLinkSuffix)] }
    [.text test],
   .text " "]

/-- The anchor of an assertion: a link to itself and links to the tests that claim the
assertion. -/
def anchor
    (annotator : Annotator)
    (coverage : Coverage)
    (id : String)
    (keyword : Keyword) :
    Node :=
  let anchorId := annotator.anchorClass ++ "." ++ id
  .element
    { name := "span"
      attributes :=
        [("class", annotator.anchorClass ++ " kw-" ++ keyword.text), ("id", anchorId)] }
    ([.text " ",
      .element { name := "a", attributes := [("href", "#" ++ anchorId), ("title", id)] }
        [.text "#"],
      .text " "] ++
      (coverage.testsFor id).flatMap annotator.testLink)

end Annotator

/-- A text node, unless it would be empty. -/
def textNode (content : List Char) : List Node :=
  if content.isEmpty then [] else [.text (String.ofList content)]

/-- The nodes that stand for a text node once it is divided around another node. -/
def divide (content : String) (position : Nat) (node : Node) : List Node :=
  let (before, after) := Text.cutAt position content.toList
  textNode before ++ node :: textNode after

/-- Puts a node into the text node that a path leads to, at a byte position. -/
def insertAt (node : Node) (position : Nat) : List Nat → List Node → List Node
  | [], nodes => nodes
  | [index], nodes =>
      match nodes[index]? with
      | some (.text content) =>
          nodes.take index ++ divide content position node ++ nodes.drop (index + 1)
      | _ => nodes
  | index :: path, nodes =>
      nodes.modify index fun
        | .element tag children => .element tag (insertAt node position path children)
        | other => other

/-- The division that is made when a node is put into the text node that a path leads to. -/
def divisionAt (position : Nat) (path : List Nat) (nodes : List Node) : List Division :=
  match Node.at? path nodes with
  | some (.text content) => [⟨content, position⟩]
  | _ => []

end CrossReference
end Conformance
