import Conformance.Markup.Tree
import Conformance.Text.Literal

/-!
# Writing HTML

A tree is written as HTML.  Void elements have neither content nor end tag, and the text inside
raw text elements is written as it is.
-/

namespace Conformance
namespace Markup
namespace Html

open scoped Text

/-- The elements that are written without content and end tag. -/
def voidNames : List String :=
  ["area", "base", "basefont", "bgsound", "br", "col", "embed", "frame", "hr", "img", "input",
   "link", "meta", "param", "spacer", "wbr"]

/-- The elements whose text is written as it is. -/
def rawTextNames : List String :=
  ["style", "script", "xmp", "iframe", "noembed", "noframes", "noscript"]

/-- A character as it is written in text and attribute values. -/
def escapeCharacter : Char → List Char
  | '&' => "&amp;"
  | '<' => "&lt;"
  | '>' => "&gt;"
  | '"' => "&quot;"
  | other => [other]

/-- Text as it is written outside raw text elements. -/
def escape (text : List Char) : List Char :=
  text.flatMap escapeCharacter

/-- An attribute with the space in front of it. -/
def attributeText : String × String → List Char
  | (name, value) => " " ++ name ++ "=\"" ++ escape value.toList ++ "\""

/-- The start tag of an element. -/
def startTag (tag : Tag) : List Char :=
  "<" ++ tag.name ++ tag.attributes.flatMap attributeText ++ ">"

/-- The end tag of an element. -/
def endTag (tag : Tag) : List Char :=
  "</" ++ tag.name ++ ">"

mutual

/-- A node; `raw` tells whether it stands inside a raw text element. -/
def node (raw : Bool) : Node → List Char
  | .text content => if raw then content.toList else escape content.toList
  | .comment content => "<!--" ++ content ++ "-->"
  | .element tag children =>
      if voidNames.contains tag.name then startTag tag
      else
        startTag tag ++ nodes (raw || rawTextNames.contains tag.name) children ++ endTag tag

/-- Nodes one after the other. -/
def nodes (raw : Bool) : List Node → List Char
  | [] => []
  | first :: rest => node raw first ++ nodes raw rest

end

/-- A document with the given root. -/
def document (root : Element) : List Char :=
  "<!DOCTYPE HTML>\n" ++ node false root.toNode

end Html
end Markup
end Conformance
