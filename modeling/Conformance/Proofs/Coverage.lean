import Conformance.Coverage

/-!
# Claims

Claims are listed under the assertion that they are about, each one behind the earlier ones.  So
the tests of an assertion are the tests that claim it, as often as they do.
-/

namespace Conformance

/-- The names of the tests that claim an assertion, one for each claim, in the order of the
claims. -/
def claimants (tests : List TestCase) (assertion : String) : List String :=
  tests.flatMap fun test =>
    (test.testing.filter fun claimed => claimed == assertion).map fun _ => test.name

theorem claimants_ne_nil_iff (tests : List TestCase) (assertion : String) :
    claimants tests assertion ≠ [] ↔ ∃ test ∈ tests, assertion ∈ test.testing := by
  simp [claimants]

namespace Coverage

/-- What is listed for an assertion once further tests claim it.  An assertion that was not listed
is so only if there are any. -/
def extended (listed : Option (List String)) : List String → Option (List String)
  | [] => listed
  | test :: tests => some (listed.getD [] ++ test :: tests)

@[simp]
theorem extended_nil (listed : Option (List String)) : extended listed [] = listed :=
  rfl

/-- Tests that claim an assertion one after the other are listed as if they did so at once. -/
theorem extended_append (listed : Option (List String)) (earlier later : List String) :
    extended listed (earlier ++ later) = extended (extended listed earlier) later := by
  cases earlier <;> cases later <;> simp [extended]

theorem getD_extended (listed : Option (List String)) (tests : List String) :
    (extended listed tests).getD [] = listed.getD [] ++ tests := by
  cases tests <;> simp [extended]

theorem isSome_extended_iff (listed : Option (List String)) (tests : List String) :
    (extended listed tests).isSome = true ↔ listed.isSome = true ∨ tests ≠ [] := by
  cases tests <;> simp [extended]

/-- A claim is listed under its assertion, behind the earlier ones, and nowhere else. -/
theorem get?_claim (coverage : Coverage) (assertion test other : String) :
    (coverage.claim assertion test).claims.get? other =
      extended (coverage.claims.get? other) (if assertion = other then [test] else []) := by
  rw [claim, NameMap.get?_update]
  by_cases same : assertion = other
  · simp [same, extended]
  · simp [same, Ne.symm same]

theorem get?_foldl_claim
    (coverage : Coverage)
    (assertions : List String)
    (test other : String) :
    (assertions.foldl (fun known id => known.claim id test) coverage).claims.get? other =
      extended (coverage.claims.get? other)
        ((assertions.filter fun claimed => claimed == other).map fun _ => test) := by
  induction assertions generalizing coverage with
  | nil => rfl
  | cons assertion assertions inductionHypothesis =>
      rw [List.foldl_cons, inductionHypothesis, get?_claim, ← extended_append]
      by_cases same : assertion = other <;> simp [same]

/-- Recording tests adds their claims. -/
theorem get?_foldl_record
    (coverage : Coverage)
    (tests : List TestCase)
    (assertion : String) :
    (tests.foldl record coverage).claims.get? assertion =
      extended (coverage.claims.get? assertion) (claimants tests assertion) := by
  induction tests generalizing coverage with
  | nil => rfl
  | cons test tests inductionHypothesis =>
      rw [List.foldl_cons, inductionHypothesis, record, get?_foldl_claim, ← extended_append]
      rfl

theorem testsFor_foldl_record
    (coverage : Coverage)
    (tests : List TestCase)
    (assertion : String) :
    (tests.foldl record coverage).testsFor assertion =
      coverage.testsFor assertion ++ claimants tests assertion := by
  rw [testsFor, get?_foldl_record, getD_extended, testsFor]

/-- Recording tests lists the assertions that they claim. -/
theorem isClaimed_foldl_record
    (coverage : Coverage)
    (tests : List TestCase)
    (assertion : String) :
    (tests.foldl record coverage).isClaimed assertion = true ↔
      coverage.isClaimed assertion = true ∨ ∃ test ∈ tests, assertion ∈ test.testing := by
  rw [isClaimed, NameMap.contains, get?_foldl_record, isSome_extended_iff, claimants_ne_nil_iff,
    isClaimed, NameMap.contains]

/-- The tests of an assertion are those that claim it. -/
theorem testsFor_ofTests (tests : List TestCase) (assertion : String) :
    (ofTests tests).testsFor assertion = claimants tests assertion := by
  rw [ofTests, testsFor_foldl_record]
  rfl

end Coverage

end Conformance
