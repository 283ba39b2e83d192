import Conformance.Keyword
import Conformance.Text.Search
import Conformance.Value.Record

/-!
# Assertions of the standard

An assertion is one normative statement, found in the prose by a pattern.  Where the pattern
alone would fit several places, a back-reference says what an earlier sibling has to hold.
-/

namespace Conformance

/-- A condition on the sibling that stands some places before a match. -/
structure BackReference where
  /-- How many siblings to go back. -/
  siblings : Nat
  /-- The text looked for in that sibling. -/
  text : String
  /-- Whether the text has to occur there, or must not. -/
  expected : Bool := true
deriving DecidableEq, Inhabited, Repr

namespace BackReference

/-- Whether a sibling with this text satisfies the condition. -/
def accepts (reference : BackReference) (siblingText : String) : Bool :=
  Text.occursIn reference.text.toList siblingText.toList == reference.expected

/-- Reads a pair of distance and text, or a triple that also tells whether the text is
expected. -/
def ofValue? : Value → Option BackReference
  | .array [siblings, text] => do
      return { siblings := ← siblings.toNat? Value.maxUnsigned64, text := ← text.toText? }
  | .array [siblings, text, expected] => do
      return {
        siblings := ← siblings.toNat? Value.maxUnsigned64
        text := ← text.toText?
        expected := ← expected.toBool? }
  | _ => none

/-- Writes the triple. -/
def toValue (reference : BackReference) : Value :=
  .array [.ofNat reference.siblings, .string reference.text, .bool reference.expected]

end BackReference

/-- One normative statement of the standard. -/
structure SpecAssertion where
  /-- The name that tests refer to. -/
  id : String
  /-- The prose pattern. -/
  text : String
  /-- The requirement level, where it is not left to a marker in the pattern. -/
  keyword : Option Keyword := none
  /-- The condition on an earlier sibling. -/
  previously : Option BackReference := none
deriving DecidableEq, Inhabited, Repr

namespace SpecAssertion

/-- The names of the fields in their fixed order. -/
def fieldNames : List String :=
  ["id", "text", "keyword", "previously"]

/-- Reads an assertion. -/
def ofValue? (value : Value) : Option SpecAssertion := do
  let record ← Record.ofValue? fieldNames value
  return {
    id := ← record.required "id" Value.toText?
    text := ← record.required "text" Value.toText?
    keyword := ← record.optional "keyword" Keyword.ofValue?
    previously := ← record.optional "previously" BackReference.ofValue? }

/-- Writes every field of an assertion. -/
def toValue (assertion : SpecAssertion) : Value :=
  .table [
    ("id", .string assertion.id),
    ("text", .string assertion.text),
    ("keyword", .ofOption Keyword.toValue assertion.keyword),
    ("previously", .ofOption BackReference.toValue assertion.previously)]

end SpecAssertion

end Conformance
