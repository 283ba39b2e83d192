import Conformance.Error
import Conformance.Prose.Marker
import Conformance.Prose.Match
import Conformance.SpecAssertion
import Conformance.Text.ByteSize

/-!
# Prose patterns

A pattern finds a statement of the standard and the place of its anchor.  It has exactly one
anchor and at most one keyword marker.
-/

namespace Conformance
namespace Prose

open scoped Text

/-- Why a text is no pattern. -/
inductive Fault where
  /-- More than one keyword is marked. -/
  | keywordMarkers (count : Nat)
  /-- There is no anchor, or more than one. -/
  | anchors (count : Nat)
deriving DecidableEq, Inhabited, Repr

/-- The fault in words. -/
def Fault.message : Fault → String
  | .keywordMarkers count => s!"{count} keyword markers, at most one allowed"
  | .anchors count => s!"expected exactly one <^> anchor, found {count}"

/-- A pattern that can be looked for. -/
structure Pattern where
  /-- What is looked for. -/
  tokens : List Token
  /-- The requirement level of the statement. -/
  keyword : Keyword := .none
deriving DecidableEq, Inhabited, Repr

namespace Pattern

/-- The pattern that a text describes.  A keyword that is given wins over a marked one. -/
def ofText (given : Option Keyword) (text : List Char) : Except Fault Pattern :=
  let unmarked := unmark text
  if unmarked.keywords.length > 1 then
    .error (.keywordMarkers unmarked.keywords.length)
  else
    let anchors := Text.occurrences "<^>" unmarked.prose
    if anchors ≠ 1 then .error (.anchors anchors)
    else
      .ok {
        tokens := Token.ofProse unmarked.prose
        keyword := (given <|> unmarked.keywords.head?).getD .none }

/-- The pattern of the assertion with that id. -/
def compile (id text : String) (given : Option Keyword) : Except Error Pattern :=
  (ofText given text.toList).mapError fun fault => .malformedPattern id fault.message

/-- The pattern of an assertion. -/
def ofAssertion (assertion : SpecAssertion) : Except Error Pattern :=
  compile assertion.id assertion.text assertion.keyword

/-- The byte position of the anchor in the first match in the text. -/
def anchorOffset? (pattern : Pattern) (text : String) : Option Nat :=
  (find? pattern.tokens text.toList).map fun rest =>
    Text.byteSize text.toList - Text.byteSize rest

end Pattern

end Prose
end Conformance
