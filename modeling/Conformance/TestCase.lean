import Conformance.Value.Record

/-!
# Tests

A test of the suite: a body of code with directives, and what is known about it.
-/

namespace Conformance

/-- What the embedding harness is told about a test. -/
structure HarnessFlags where
  /-- The number of the bug that tracks the test. -/
  bug : Option Nat := none
  /-- Whether the whole test is expected to throw. -/
  throws : Bool := false
  /-- Whether the test has no embedded form. -/
  disabled : Bool := false
deriving DecidableEq, Inhabited, Repr

namespace HarnessFlags

/-- The names of the fields in their fixed order. -/
def fieldNames : List String :=
  ["bug", "throws", "disabled"]

/-- Reads the flags. -/
def ofValue? (value : Value) : Option HarnessFlags := do
  let record ← Record.ofValue? fieldNames value
  return {
    bug := ← record.optional "bug" (Value.toNat? Value.maxUnsigned64)
    throws := ← record.withDefault "throws" false Value.toBool?
    disabled := ← record.withDefault "disabled" false Value.toBool? }

/-- Writes every flag. -/
def toValue (flags : HarnessFlags) : Value :=
  .table [
    ("bug", .ofOption .ofNat flags.bug),
    ("throws", .bool flags.throws),
    ("disabled", .bool flags.disabled)]

end HarnessFlags

/-- One test of the suite. -/
structure TestCase where
  /-- The name, whose dots separate levels of a hierarchy. -/
  name : String
  /-- The body with its directives. -/
  code : String
  /-- The ids of the assertions that the test claims to exercise. -/
  testing : List String := []
  /-- The rendering that is expected. -/
  expected : Option String := none
  /-- Attributes of the canvas element. -/
  canvas : Option String := none
  /-- The images of the test; a bare file name is that of a shared image. -/
  images : List String := []
  /-- The fonts of the test. -/
  fonts : List String := []
  /-- Remarks for the maintainers. -/
  notes : Option String := none
  /-- What the test is about. -/
  description : Option String := none
  /-- What the embedding harness is told. -/
  flags : Option HarnessFlags := none
deriving DecidableEq, Inhabited, Repr

namespace TestCase

/-- What stands before each dot, shortest first. -/
def beforeDots : List Char → List (List Char)
  | [] => []
  | character :: rest =>
      let later := (beforeDots rest).map (character :: ·)
      if character = '.' then [] :: later else later

/-- The categories that a test belongs to by its name, outermost first. -/
def categories (test : TestCase) : List String :=
  (beforeDots test.name.toList).map String.ofList

/-- Whether the test has no embedded form by its flags. -/
def isDisabledForEmbedded (test : TestCase) : Bool :=
  test.flags.any HarnessFlags.disabled

/-- The names of the fields in their fixed order. -/
def fieldNames : List String :=
  ["name", "code", "testing", "expected", "canvas", "images", "fonts", "notes", "desc", "mozilla"]

/-- Reads a test. -/
def ofValue? (value : Value) : Option TestCase := do
  let record ← Record.ofValue? fieldNames value
  return {
    name := ← record.required "name" Value.toText?
    code := ← record.required "code" Value.toText?
    testing := ← record.withDefault "testing" [] Value.toTexts?
    expected := ← record.optional "expected" Value.toText?
    canvas := ← record.optional "canvas" Value.toText?
    images := ← record.withDefault "images" [] Value.toTexts?
    fonts := ← record.withDefault "fonts" [] Value.toTexts?
    notes := ← record.optional "notes" Value.toText?
    description := ← record.optional "desc" Value.toText?
    flags := ← record.optional "mozilla" HarnessFlags.ofValue? }

/-- Writes every field of a test. -/
def toValue (test : TestCase) : Value :=
  .table [
    ("name", .string test.name),
    ("code", .string test.code),
    ("testing", .ofTexts test.testing),
    ("expected", .ofOption .string test.expected),
    ("canvas", .ofOption .string test.canvas),
    ("images", .ofTexts test.images),
    ("fonts", .ofTexts test.fonts),
    ("notes", .ofOption .string test.notes),
    ("desc", .ofOption .string test.description),
    ("mozilla", .ofOption HarnessFlags.toValue test.flags)]

example : ({ name := "2d.arc.zero", code := "" } : TestCase).categories = ["2d", "2d.arc"] := by
  decide

end TestCase

end Conformance
