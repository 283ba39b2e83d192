import Conformance.CrossReference.Findings
import Conformance.SpecAssertion
import Conformance.Suite.Context
import Conformance.Value.Record
import Conformance.Value.Json

/-!
# Coverage reports

What a suite covers and what went wrong, as numbers and lists, as text and as JSON.
-/

namespace Conformance
namespace Suite

open CrossReference (Findings Outcome)

/-- A claim of an assertion that is not declared. -/
structure UndeclaredReference where
  /-- The test that makes the claim. -/
  test : String
  /-- The assertion that does not exist. -/
  assertion : String
deriving DecidableEq, Inhabited, Repr

/-- A record that failed, in words. -/
structure FailureSummary where
  /-- The name of the record. -/
  record : String
  /-- The dialect in which it failed, if that matters. -/
  dialect : Option String
  /-- What was wrong. -/
  message : String
deriving DecidableEq, Inhabited, Repr

/-- The report about a suite. -/
structure Report where
  /-- The number of declared assertions. -/
  assertions : Nat := 0
  /-- The number of different tests. -/
  tests : Nat := 0
  /-- The number of assertions that were found. -/
  matched : Nat := 0
  /-- The assertions that were not found. -/
  unmatched : List String := []
  /-- The assertions that were found in several places. -/
  matchedMultiple : List String := []
  /-- The assertions that no test claims. -/
  zeroCoverage : List String := []
  /-- The claims of assertions that are not declared. -/
  undeclaredReferences : List UndeclaredReference := []
  /-- The records that failed. -/
  failures : List FailureSummary := []
deriving DecidableEq, Inhabited, Repr

/-- The claim that a remark is about, if it is about one. -/
def Diagnostic.undeclared? : Diagnostic → Option UndeclaredReference
  | .undeclaredAssertion test assertion => some ⟨test, assertion⟩
  | _ => none

/-- The summary of a record that could not be compiled. -/
def RecordFailure.summary (failure : RecordFailure) : FailureSummary where
  record := failure.record
  dialect := failure.dialect.map Dialect.name
  message := failure.error.message

/-- The summary of a pattern that could not be looked for. -/
def patternFailure (error : Error) : FailureSummary where
  record :=
    match error with
    | .malformedPattern id _ => id
    | _ => ""
  dialect := none
  message := error.message

namespace Report

/-- The report on an annotated document and compiled tests. -/
def build
    (assertions : List SpecAssertion)
    (findings : Findings)
    (context : Context) :
    Report :=
  let ids := assertions.map SpecAssertion.id
  { assertions := ids.length
    tests := context.testsSeen
    matched := (ids.filter fun id => (findings.outcome? id).any Outcome.isMatched).length
    unmatched := ids.filter fun id => findings.outcome? id == some .unmatched
    matchedMultiple := ids.filter findings.isMatchedMultiple
    zeroCoverage := findings.unclaimed
    undeclaredReferences := context.diagnostics.filterMap Diagnostic.undeclared?
    failures :=
      context.failures.map RecordFailure.summary ++ findings.failures.map patternFailure }

/-- Whether nothing is unmatched, ambiguous, undeclared or failed. -/
def isClean (report : Report) : Bool :=
  report.unmatched.isEmpty && report.matchedMultiple.isEmpty &&
    report.undeclaredReferences.isEmpty && report.failures.isEmpty

/-- A headed list; nothing if the list is empty. -/
def listing (title : String) (items : List String) : List String :=
  if items.isEmpty then []
  else "" :: s!"{title} ({items.length}):" :: items

/-- The line for a record that failed. -/
def failureLine (failure : FailureSummary) : String :=
  match failure.dialect with
  | some dialect => s!"  \u2717 {failure.record} [{dialect}]: {failure.message}"
  | none => s!"  \u2717 {failure.record}: {failure.message}"

/-- The lines of the report. -/
def lines (report : Report) : List String :=
  let item (text : String) := s!"  - {text}"
  [s!"Spec coverage: {report.matched}/{report.assertions} assertions located, {report.tests} tests"]
    ++ listing "Unmatched spec statements" (report.unmatched.map item)
    ++ listing "Spec statements matching multiple places" (report.matchedMultiple.map item)
    ++ listing "Spec statements without tests" (report.zeroCoverage.map item)
    ++ listing "References to nonexistent spec points"
        (report.undeclaredReferences.map fun reference =>
          item s!"{reference.assertion} (from {reference.test})")
    ++ listing "Failures" (report.failures.map failureLine)
    ++ if report.isClean then ["", "\u2713 No problems found"] else []

/-- The report as text. -/
def text (report : Report) : String :=
  String.join (report.lines.map (· ++ "\n"))

/-- Writes the report. -/
def toValue (report : Report) : Value :=
  .table [
    ("assertions", .ofNat report.assertions),
    ("tests", .ofNat report.tests),
    ("matched", .ofNat report.matched),
    ("unmatched", .ofTexts report.unmatched),
    ("matched_multiple", .ofTexts report.matchedMultiple),
    ("zero_coverage", .ofTexts report.zeroCoverage),
    ("undeclared_references",
      .array (report.undeclaredReferences.map fun reference =>
        .table [("test", .string reference.test), ("assertion", .string reference.assertion)])),
    ("failures",
      .array (report.failures.map fun failure =>
        .table [
          ("record", .string failure.record),
          ("dialect", .ofOption .string failure.dialect),
          ("message", .string failure.message)]))]

/-- Reads a claim of an assertion that is not declared. -/
def readReference (value : Value) : Option UndeclaredReference := do
  let record ← Record.ofValue? ["test", "assertion"] value
  return {
    test := ← record.required "test" Value.toText?
    assertion := ← record.required "assertion" Value.toText? }

/-- Reads the summary of a record that failed. -/
def readFailure (value : Value) : Option FailureSummary := do
  let record ← Record.ofValue? ["record", "dialect", "message"] value
  return {
    record := ← record.required "record" Value.toText?
    dialect := ← record.optional "dialect" Value.toText?
    message := ← record.required "message" Value.toText? }

/-- The names of the fields in their fixed order. -/
def fieldNames : List String :=
  ["assertions", "tests", "matched", "unmatched", "matched_multiple", "zero_coverage",
   "undeclared_references", "failures"]

/-- Reads a report. -/
def ofValue? (value : Value) : Option Report := do
  let record ← Record.ofValue? fieldNames value
  let count (name : String) := record.required name (Value.toNat? Value.maxUnsigned64)
  let texts (name : String) := record.required name Value.toTexts?
  return {
    assertions := ← count "assertions"
    tests := ← count "tests"
    matched := ← count "matched"
    unmatched := ← texts "unmatched"
    matchedMultiple := ← texts "matched_multiple"
    zeroCoverage := ← texts "zero_coverage"
    undeclaredReferences := ← record.required "undeclared_references"
      (Value.toList? readReference)
    failures := ← record.required "failures" (Value.toList? readFailure) }

/-- The report as JSON text. -/
def toJson (report : Report) : String :=
  report.toValue.toJson

end Report

end Suite
end Conformance
