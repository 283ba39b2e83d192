import Conformance.Text.Blank

/-!
# Markup trees

A document is a tree of elements, text and comments.  Attributes stand in document order and may
repeat a name; the first one of a name counts.
-/

namespace Conformance
namespace Markup

/-- What stands in the tag of an element: its name and its attributes. -/
structure Tag where
  /-- The name of the element. -/
  name : String
  /-- Names and values of the attributes in document order. -/
  attributes : List (String × String) := []
deriving DecidableEq, Inhabited, Repr

namespace Tag

/-- The value of an attribute. -/
def attribute? (tag : Tag) (name : String) : Option String :=
  tag.attributes.lookup name

/-- Attributes in which one has a new value, in place or as the last one. -/
def setIn (name value : String) : List (String × String) → List (String × String)
  | [] => [(name, value)]
  | (key, earlier) :: rest =>
      if key = name then (key, value) :: rest else (key, earlier) :: setIn name value rest

/-- Gives an attribute a value. -/
def setAttribute (tag : Tag) (name value : String) : Tag :=
  { tag with attributes := setIn name value tag.attributes }

/-- Takes the first attribute of a name away. -/
def removeAttribute (tag : Tag) (name : String) : Tag :=
  { tag with attributes := tag.attributes.eraseP fun (key, _) => key == name }

/-- The classes of an element: the words of its `class` attribute. -/
def classes (tag : Tag) : List String :=
  (Text.words ((tag.attribute? "class").getD "").toList).map String.ofList

/-- Whether an element has a class. -/
def hasClass (tag : Tag) (className : String) : Bool :=
  tag.classes.contains className

end Tag

/-- A node of a markup tree. -/
inductive Node where
  /-- An element with its children. -/
  | element (tag : Tag) (children : List Node)
  /-- A piece of text. -/
  | text (content : String)
  /-- A comment. -/
  | comment (content : String)
deriving Inhabited, Repr

/-- An element by itself. -/
structure Element where
  /-- Its name and attributes. -/
  tag : Tag
  /-- The nodes inside. -/
  children : List Node := []
deriving Inhabited, Repr

namespace Node

/-- The node as an element. -/
def toElement? : Node → Option Element
  | .element tag children => some ⟨tag, children⟩
  | _ => none

/-- Whether the node is an element of a class. -/
def hasClass (className : String) : Node → Bool
  | .element tag _ => tag.hasClass className
  | _ => false

mutual

/-- All text inside a node. -/
def textContent : Node → String
  | .element _ children => textContents children
  | .text content => content
  | .comment _ => ""

/-- All text inside some nodes. -/
def textContents : List Node → String
  | [] => ""
  | node :: rest => textContent node ++ textContents rest

end

mutual

/-- A node from whose inside the elements of a class are taken. -/
def strip (className : String) : Node → Node
  | .element tag children => .element tag (stripAll className children)
  | .text content => .text content
  | .comment content => .comment content

/-- Nodes from which, and from whose inside, the elements of a class are taken. -/
def stripAll (className : String) : List Node → List Node
  | [] => []
  | node :: rest =>
      if node.hasClass className then stripAll className rest
      else strip className node :: stripAll className rest

end

mutual

/-- How many elements of a class stand inside a node, those inside one another counted once. -/
def countInside (className : String) : Node → Nat
  | .element _ children => countAll className children
  | .text _ => 0
  | .comment _ => 0

/-- How many elements of a class stand among some nodes and inside them, those inside one another
counted once. -/
def countAll (className : String) : List Node → Nat
  | [] => 0
  | node :: rest =>
      (if node.hasClass className then 1 else countInside className node) +
        countAll className rest

end

/-- The node that a path of child indices leads to. -/
def at? : List Nat → List Node → Option Node
  | [], _ => none
  | [index], nodes => nodes[index]?
  | index :: path, nodes =>
      match nodes[index]? with
      | some (.element _ children) => at? path children
      | _ => none

end Node

namespace Element

/-- The element as a node. -/
def toNode (element : Element) : Node :=
  .element element.tag element.children

/-- All text inside an element. -/
def textContent (element : Element) : String :=
  Node.textContents element.children

/-- Takes away all elements of a class inside an element. -/
def strip (className : String) (element : Element) : Element :=
  { element with children := Node.stripAll className element.children }

/-- The first child element of a name, between the nodes before and after it. -/
def splitAt? (name : String) : List Node → Option (List Node × Element × List Node)
  | [] => none
  | node :: rest =>
      match node.toElement?.filter fun element => element.tag.name == name with
      | some element => some ([], element, rest)
      | none =>
          (splitAt? name rest).map fun (before, element, after) => (node :: before, element, after)

/-- The first child element of a name. -/
def child? (element : Element) (name : String) : Option Element :=
  (splitAt? name element.children).map fun (_, found, _) => found

/-- Changes the first child element of a name. -/
def modifyChild (element : Element) (name : String) (change : Element → Element) : Element :=
  match splitAt? name element.children with
  | some (before, found, after) =>
      { element with children := before ++ (change found).toNode :: after }
  | none => element

/-- The element that a path of child indices leads to. -/
def descendant? (element : Element) : List Nat → Option Element
  | [] => some element
  | path => (Node.at? path element.children).bind Node.toElement?

/-- Changes the element that a path of child indices leads to. -/
def modifyAt (change : Element → Element) : List Nat → Element → Element
  | [], element => change element
  | index :: path, element =>
      { element with
        children := element.children.modify index fun
          | .element tag children => (modifyAt change path ⟨tag, children⟩).toNode
          | other => other }

end Element

end Markup
end Conformance
