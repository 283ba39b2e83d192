import Conformance.Error
import Conformance.Markup.Event
import Conformance.Markup.Html

/-!
# Documents

A document is its root element.  It is built from the events of an XHTML source: text pieces that
touch become one, and text and comments outside the root are dropped.
-/

namespace Conformance
namespace Markup

/-- An element that is not closed yet. -/
structure OpenElement where
  /-- Its name and attributes. -/
  tag : Tag
  /-- The nodes inside so far, the latest one first. -/
  latest : List Node := []
deriving Inhabited, Repr

namespace OpenElement

/-- Adds a node. -/
def add (element : OpenElement) (node : Node) : OpenElement :=
  { element with latest := node :: element.latest }

/-- Adds text, to the latest node if that is text too. -/
def addText (element : OpenElement) (content : String) : OpenElement :=
  match element.latest with
  | .text earlier :: rest => { element with latest := .text (earlier ++ content) :: rest }
  | latest => { element with latest := .text content :: latest }

/-- The element with all nodes that were added. -/
def close (element : OpenElement) : Element where
  tag := element.tag
  children := element.latest.reverse

end OpenElement

/-- A document that is being built. -/
structure Building where
  /-- The open elements, the innermost one first. -/
  opened : List OpenElement := []
  /-- The root element, once it is complete. -/
  root : Option Element := none
deriving Inhabited, Repr

namespace Building

/-- Adds a complete element, as the root if no element is open. -/
def addElement
    (building : Building)
    (position : Nat)
    (element : Element) :
    Except Refusal Building :=
  match building.opened, building.root with
  | parent :: outer, _ => .ok { building with opened := parent.add element.toNode :: outer }
  | [], none => .ok { building with root := some element }
  | [], some _ => .error ⟨position, .contentAfterRoot⟩

/-- Changes the innermost open element, if any. -/
def modifyInnermost (building : Building) (change : OpenElement → OpenElement) : Building :=
  match building.opened with
  | innermost :: outer => { building with opened := change innermost :: outer }
  | [] => building

/-- Closes the innermost open element. -/
def close
    (building : Building)
    (name : String)
    (first last : Nat) :
    Except Refusal Building :=
  match building.opened with
  | [] => .error ⟨first, .nothingToClose name⟩
  | innermost :: outer =>
      if innermost.tag.name = name then
        addElement { building with opened := outer } last innermost.close
      else .error ⟨first, .closesOther innermost.tag.name name⟩

/-- Continues with an event. -/
def step (building : Building) (located : Located) : Except Refusal Building :=
  match located.event with
  | .opening tag => .ok { building with opened := { tag := tag } :: building.opened }
  | .empty tag => building.addElement located.last { tag := tag }
  | .closing name => building.close name located.first located.last
  | .text content => .ok (building.modifyInnermost (·.addText content))
  | .comment content => .ok (building.modifyInnermost (·.add (.comment content)))

/-- The root element of a building that ends at a position. -/
def finish (building : Building) (position : Nat) : Except Refusal Element :=
  match building.opened, building.root with
  | innermost :: _, _ => .error ⟨position, .elementNotClosed innermost.tag.name⟩
  | [], some root => .ok root
  | [], none => .error ⟨position, .noRoot⟩

end Building

/-- The root element that a reading builds. -/
def Reading.build (reading : Reading) : Except Refusal Element := do
  let building ← reading.events.foldlM Building.step {}
  let position ← reading.ending
  building.finish position

/-- A document. -/
structure Document where
  /-- The element around all others. -/
  root : Element
deriving Inhabited, Repr

namespace Document

/-- Reads an XHTML source. -/
def ofXhtml (source : String) : Except Error Document :=
  match (Reading.ofSource source.toList).build with
  | .ok root => .ok ⟨root⟩
  | .error refusal => .error (.markup refusal.position refusal.fault.message)

/-- Writes the document as HTML. -/
def toHtml (document : Document) : String :=
  String.ofList (Html.document document.root)

/-- The body of the document. -/
def body? (document : Document) : Option Element :=
  document.root.child? "body"

/-- Changes the head of the document. -/
def modifyHead (document : Document) (change : Element → Element) : Document where
  root := document.root.modifyChild "head" change

/-- The link to a stylesheet. -/
def stylesheetLink (address : String) : Node :=
  .element
    { name := "link"
      attributes := [("rel", "stylesheet"), ("href", address), ("type", "text/css")] }
    []

/-- Links a stylesheet at the end of the head. -/
def addStylesheet (document : Document) (address : String) : Document :=
  document.modifyHead fun head =>
    { head with children := head.children ++ [stylesheetLink address] }

/-- The declaration of the character encoding. -/
def encodingDeclaration : Node :=
  .element { name := "meta", attributes := [("charset", "UTF-8")] } []

/-- A root tag without the marks of XHTML: the namespace goes, and the language is also given the
way HTML gives it. -/
def htmlTag (tag : Tag) : Tag :=
  let plain := tag.removeAttribute "xmlns"
  match plain.attribute? "xml:lang" with
  | some language => plain.setAttribute "lang" language
  | none => plain

/-- Makes the document one of HTML; its head begins with the encoding. -/
def prepareForHtml (document : Document) : Document :=
  let root := { document.root with tag := htmlTag document.root.tag }
  modifyHead ⟨root⟩ fun head => { head with children := encodingDeclaration :: head.children }

end Document

end Markup
end Conformance
