import Conformance.NameMap
import Conformance.TestCase

/-!
# Coverage

Which tests claim which assertions.  The tests of an assertion are listed in the order of their
claims, with repetitions.
-/

namespace Conformance

/-- The names of the tests that claim each assertion. -/
structure Coverage where
  /-- The tests of each assertion id that was claimed or loaded. -/
  claims : NameMap (List String) := ∅
deriving Inhabited

namespace Coverage

/-- A test claims an assertion. -/
def claim (coverage : Coverage) (assertion test : String) : Coverage where
  claims := coverage.claims.update assertion fun earlier => earlier.getD [] ++ [test]

/-- A test makes all its claims. -/
def record (coverage : Coverage) (test : TestCase) : Coverage :=
  test.testing.foldl (fun known id => known.claim id test.name) coverage

/-- The claims of all tests. -/
def ofTests (tests : List TestCase) : Coverage :=
  tests.foldl record {}

/-- The tests that claim an assertion. -/
def testsFor (coverage : Coverage) (assertion : String) : List String :=
  (coverage.claims.get? assertion).getD []

/-- Whether the assertion is listed. -/
def isClaimed (coverage : Coverage) (assertion : String) : Bool :=
  coverage.claims.contains assertion

/-- The number of listed assertions. -/
def size (coverage : Coverage) : Nat :=
  coverage.claims.size

/-- Whether no assertion is listed. -/
def isEmpty (coverage : Coverage) : Bool :=
  coverage.size == 0

/-- Reads the lists of tests. -/
def ofValue? (value : Value) : Option Coverage := do
  let record ← Record.ofValue? ["claims"] value
  let entries ← record.required "claims" (Value.toEntries? Value.toTexts?)
  return { claims := .ofList entries }

/-- Writes the lists of tests in the order of the assertion ids. -/
def toValue (coverage : Coverage) : Value :=
  .table [
    ("claims", .table (coverage.claims.sorted.map fun (id, tests) => (id, .ofTexts tests)))]

end Coverage

end Conformance
