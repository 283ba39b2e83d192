/-!
# Diagnostics

Remarks about single tests that do not keep a test from being compiled.
-/

namespace Conformance
namespace Suite

/-- Why a test has no embedded form. -/
inductive SkipReason where
  /-- A human has to look at the result. -/
  | manual
  /-- The flags of the test say so. -/
  | disabled
deriving DecidableEq, Inhabited, Repr

namespace SkipReason

/-- The name of a reason. -/
def name : SkipReason → String
  | .manual => "manual"
  | .disabled => "disabled"

/-- The reason of that name. -/
def ofName? : String → Option SkipReason
  | "manual" => some .manual
  | "disabled" => some .disabled
  | _ => none

/-- The reason in words. -/
def text : SkipReason → String
  | .manual => "manual check"
  | .disabled => "disabled"

end SkipReason

/-- A remark about a test. -/
inductive Diagnostic where
  /-- There was a test of that name before. -/
  | duplicateTestName (test : String)
  /-- The test claims an assertion that is not declared. -/
  | undeclaredAssertion (test assertion : String)
  /-- The test claims no assertion. -/
  | noAssertionRefs (test : String)
  /-- The test is expected to be green but checks for a transparent pixel. -/
  | suspiciousPixelTest (test : String)
  /-- The test has no embedded form. -/
  | embeddedSkipped (test : String) (reason : SkipReason)
deriving DecidableEq, Inhabited, Repr

namespace Diagnostic

/-- The test that a remark is about. -/
def test : Diagnostic → String
  | .duplicateTestName test => test
  | .undeclaredAssertion test _ => test
  | .noAssertionRefs test => test
  | .suspiciousPixelTest test => test
  | .embeddedSkipped test _ => test

/-- The remark in words. -/
def message : Diagnostic → String
  | .duplicateTestName test => s!"Test {test} is defined twice"
  | .undeclaredAssertion test assertion =>
      s!"Test {test} uses nonexistent spec point {assertion}"
  | .noAssertionRefs test => s!"Test {test} doesn't refer to any spec points"
  | .suspiciousPixelTest test => s!"Probable incorrect pixel test in {test}"
  | .embeddedSkipped test reason => s!"Skipping embedded test for {test} ({reason.text})"

end Diagnostic

end Suite
end Conformance
