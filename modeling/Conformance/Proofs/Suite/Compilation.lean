import Conformance.Proofs.Coverage
import Conformance.Suite

/-!
# What compilation adds to a context

Compiling a test adds its claims to the context, remarks on each claim of an undeclared assertion,
and notes at most one failure.  A run adds what each test adds, in the order of the tests.
-/

namespace Conformance
namespace Suite

namespace Context

theorem foldl_diagnose (context : Context) (diagnostics : List Diagnostic) :
    diagnostics.foldl diagnose context =
      { context with diagnostics := context.diagnostics ++ diagnostics } := by
  induction diagnostics generalizing context with
  | nil => simp
  | cons diagnostic diagnostics inductionHypothesis =>
      rw [List.foldl_cons, inductionHypothesis]
      simp [diagnose]

theorem foldl_useImage (context : Context) (images : List String) :
    images.foldl useImage context =
      { context with
        images := images.foldl (fun known image => adjoin image known) context.images } := by
  induction images generalizing context with
  | nil => rfl
  | cons image images inductionHypothesis =>
      rw [List.foldl_cons, inductionHypothesis]
      rfl

end Context

/-- The claims by which a test refers to assertions that are not declared. -/
def undeclaredBy (declared : List String) (test : TestCase) : List UndeclaredReference :=
  (test.testing.filter fun id => !declared.contains id).map (UndeclaredReference.mk test.name)

/-- Of the remarks about a test by itself, those about claims are the undeclared ones. -/
theorem filterMap_undeclared?_remarks (declared : List String) (test : TestCase) :
    (remarks declared test).filterMap Diagnostic.undeclared? = undeclaredBy declared test := by
  have ofClaims (ids : List String) :
      (ids.map (Diagnostic.undeclaredAssertion test.name)).filterMap Diagnostic.undeclared? =
        ids.map (UndeclaredReference.mk test.name) := by
    rw [List.filterMap_map, ← List.filterMap_eq_map]
    rfl
  have noRefs :
      (if test.testing.isEmpty then [Diagnostic.noAssertionRefs test.name] else []).filterMap
        Diagnostic.undeclared? = [] := by
    split <;> rfl
  have suspicious :
      (if test.expected = some "green" ∧ checksTransparentPixel test.code.toList then
        [Diagnostic.suspiciousPixelTest test.name] else []).filterMap
        Diagnostic.undeclared? = [] := by
    split <;> rfl
  rw [remarks, List.filterMap_append, List.filterMap_append, ofClaims, noRefs, suspicious,
    List.append_nil, List.append_nil, undeclaredBy]

/-- Checking a test registers it and adds remarks. -/
theorem check_eq (declared : List String) (context : Context) (test : TestCase) :
    check declared context test =
      { context.register test with
        diagnostics := context.diagnostics ++
          ((if context.hasSeen test then [.duplicateTestName test.name] else []) ++
            remarks declared test) } :=
  Context.foldl_diagnose (context.register test) _

namespace Config

variable (config : Config)

/-- The failures of a test: at most one. -/
def failuresOf (test : TestCase) : List RecordFailure :=
  match config.translator.translate .standalone test.code with
  | .error error => [⟨test.name, some .standalone, error⟩]
  | .ok _ =>
      match skipReason? test with
      | some _ => []
      | none =>
          match config.translator.translate .embedded test.code with
          | .error error => [⟨test.name, some .embedded, error⟩]
          | .ok _ => []

/-- The remark that a test has no embedded form, made unless it fails before. -/
def skipRemarks (test : TestCase) : List Diagnostic :=
  match config.translator.translate .standalone test.code with
  | .error _ => []
  | .ok _ => (skipReason? test).toList.map (Diagnostic.embeddedSkipped test.name)

/-- The shared images that a test uses, unless it fails before. -/
def imagesOf (test : TestCase) : List String :=
  match config.translator.translate .standalone test.code with
  | .error _ => []
  | .ok _ => test.images.filter isShared

/-- What compiling a test makes of a context. -/
theorem compileTest_snd
    (declared : List String)
    (context : Context)
    (test : TestCase) :
    (config.compileTest declared context test).2 =
      { coverage := context.coverage.record test
        images := (config.imagesOf test).foldl (fun known image => Context.adjoin image known)
          context.images
        names := Context.adjoin test.name context.names
        diagnostics := (check declared context test).diagnostics ++ config.skipRemarks test
        failures := context.failures ++ config.failuresOf test } := by
  simp only [compileTest, skipRemarks, failuresOf, imagesOf]
  cases config.translator.translate .standalone test.code with
  | error error => simp [Context.fail, check_eq, Context.register]
  | ok standalone =>
      simp only [compileEmbedded, Context.foldl_useImage]
      cases skipReason? test with
      | some reason => simp [Context.diagnose, check_eq, Context.register]
      | none =>
          cases config.translator.translate .embedded test.code with
          | error error => simp [Context.fail, check_eq, Context.register]
          | ok code => simp [check_eq, Context.register]

theorem filterMap_undeclared?_compileTest
    (declared : List String)
    (context : Context)
    (test : TestCase) :
    (config.compileTest declared context test).2.diagnostics.filterMap Diagnostic.undeclared? =
      context.diagnostics.filterMap Diagnostic.undeclared? ++ undeclaredBy declared test := by
  have duplicate :
      (if context.hasSeen test then [Diagnostic.duplicateTestName test.name] else []).filterMap
        Diagnostic.undeclared? = [] := by
    split <;> rfl
  have skipped : (config.skipRemarks test).filterMap Diagnostic.undeclared? = [] := by
    rw [skipRemarks]
    split
    · rfl
    · cases skipReason? test <;> rfl
  simp only [compileTest_snd, check_eq, List.filterMap_append, duplicate, skipped,
    filterMap_undeclared?_remarks, List.nil_append, List.append_nil]

/-- A run adds what each of the tests adds. -/
theorem compileAll_snd
    (declared : List String)
    (context : Context)
    (tests : List TestCase) :
    let after := (config.compileAll declared context tests).2
    after.coverage = tests.foldl Coverage.record context.coverage ∧
      after.diagnostics.filterMap Diagnostic.undeclared? =
        context.diagnostics.filterMap Diagnostic.undeclared? ++
          tests.flatMap (undeclaredBy declared) ∧
      after.failures = context.failures ++ tests.flatMap config.failuresOf := by
  induction tests generalizing context with
  | nil => simp [compileAll]
  | cons test tests inductionHypothesis =>
      have coverage_eq := congrArg Context.coverage (config.compileTest_snd declared context test)
      have undeclared_eq := config.filterMap_undeclared?_compileTest declared context test
      have failures_eq := congrArg Context.failures (config.compileTest_snd declared context test)
      obtain ⟨coverageRest, undeclaredRest, failuresRest⟩ :=
        inductionHypothesis (config.compileTest declared context test).2
      refine ⟨?_, ?_, ?_⟩
      · rw [coverage_eq] at coverageRest
        exact coverageRest
      · rw [List.flatMap_cons, ← List.append_assoc, ← undeclared_eq]
        exact undeclaredRest
      · rw [failures_eq] at failuresRest
        rw [List.flatMap_cons, ← List.append_assoc]
        exact failuresRest

/-- What is known after the tests of a suite are compiled. -/
theorem context_run
    (tests : List TestCase)
    (assertions : List SpecAssertion)
    (document : Markup.Document) :
    let context := (config.run tests assertions document).context
    context.coverage = Coverage.ofTests tests ∧
      context.diagnostics.filterMap Diagnostic.undeclared? =
        tests.flatMap (undeclaredBy (assertions.map SpecAssertion.id)) ∧
      context.failures = tests.flatMap config.failuresOf :=
  config.compileAll_snd (assertions.map SpecAssertion.id) {} tests

end Config

end Suite
end Conformance
