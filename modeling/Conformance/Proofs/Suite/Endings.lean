import Conformance.Proofs.Suite.Compilation
import Mathlib.Data.List.Forall2

/-!
# How the compilation of a test ends

The compilation of a test ends in one of four ways: the test is refused, it is skipped for the
harness, it fails there, or it is complete.  Each way says what the test adds to a run.  A run adds
what its tests add, in their order, and the compiled tests do not depend on each other.
-/

namespace Conformance
namespace Suite

/-! ## Shared images and names -/

theorem Context.mem_foldl_adjoin_iff {images known : List String} {image : String} :
    image ∈ images.foldl (fun known image => adjoin image known) known ↔
      image ∈ known ∨ image ∈ images := by
  induction images generalizing known with
  | nil => simp
  | cons first images inductionHypothesis =>
      have adjoined : image ∈ adjoin first known ↔ image ∈ known ∨ image = first := by
        by_cases isKnown : first ∈ known
        · rw [adjoin, if_pos (List.contains_iff_mem.2 isKnown), iff_self_or]
          rintro rfl
          exact isKnown
        · simp [adjoin, isKnown]
      rw [List.foldl_cons, inductionHypothesis, adjoined, List.mem_cons, or_assoc]

/-! ## Remarks of one kind -/

/-- Whether a remark says that a test has no embedded form. -/
def Diagnostic.isSkip : Diagnostic → Bool
  | .embeddedSkipped .. => true
  | _ => false

/-- Whether a remark says that there was a test of the same name before. -/
def Diagnostic.isDuplicate : Diagnostic → Bool
  | .duplicateTestName _ => true
  | _ => false

/-- The remarks about a test by itself are about its claims and its pixels. -/
theorem kind_of_mem_remarks
    {declared : List String}
    {test : TestCase}
    {diagnostic : Diagnostic}
    (member : diagnostic ∈ remarks declared test) :
    diagnostic.isSkip = false ∧ diagnostic.isDuplicate = false := by
  rw [remarks, List.mem_append, List.mem_append] at member
  rcases member with (ofClaim | noRefs) | suspicious
  · obtain ⟨id, -, rfl⟩ := List.mem_map.1 ofClaim
    exact ⟨rfl, rfl⟩
  · split at noRefs
    · rw [List.mem_singleton.1 noRefs]
      exact ⟨rfl, rfl⟩
    · cases noRefs
  · split at suspicious
    · rw [List.mem_singleton.1 suspicious]
      exact ⟨rfl, rfl⟩
    · cases suspicious

theorem kind_of_mem_skipRemarks
    {config : Config}
    {test : TestCase}
    {diagnostic : Diagnostic}
    (member : diagnostic ∈ config.skipRemarks test) :
    diagnostic.isSkip = true ∧ diagnostic.isDuplicate = false := by
  rw [Config.skipRemarks] at member
  split at member
  · cases member
  · obtain ⟨reason, -, rfl⟩ := List.mem_map.1 member
    exact ⟨rfl, rfl⟩

/-! ## Endings -/

/-- What the compilation of a test adds to a run. -/
structure Addition where
  /-- The compiled test, unless it is refused. -/
  compiled : Option CompiledTest
  /-- The remarks about the test. -/
  diagnostics : List Diagnostic
  /-- The failures of the test. -/
  failures : List RecordFailure
  /-- The shared images that the test uses. -/
  images : List String

/-- The remarks that the test has no embedded form. -/
def Addition.skips (added : Addition) : List Diagnostic :=
  added.diagnostics.filter Diagnostic.isSkip

/-- The ways in which the compilation of a test ends. -/
inductive Ending where
  /-- The test does not translate. -/
  | refused
  /-- The test is not meant for the harness. -/
  | skipped
  /-- The test does not translate for the harness. -/
  | failed
  /-- The test has both forms. -/
  | complete

theorem isShared_eq (image : String) : isShared image = decide ('/' ∉ image.toList) := by
  simp [isShared]

/-- A test is returned with its standalone code, and its images without a directory are used. -/
structure Config.Returns
    (config : Config)
    (test : TestCase)
    (added : Addition)
    (compiled : CompiledTest) :
    Prop where
  compiled_eq : added.compiled = some compiled
  name_eq : compiled.name = test.name
  translates : config.translator.translate .standalone test.code = .ok compiled.standalone
  images_eq : added.images = test.images.filter fun image => '/' ∉ image.toList

/-- What a test adds if its compilation ends in the given way. -/
def Ending.Describes (config : Config) (test : TestCase) (added : Addition) : Ending → Prop
  | .refused =>
      added.compiled = none ∧ added.images = [] ∧ added.skips = [] ∧
        ∃ error, config.translator.translate .standalone test.code = .error error ∧
          added.failures = [⟨test.name, some .standalone, error⟩]
  | .skipped =>
      added.failures = [] ∧
        ∃ compiled reason, config.Returns test added compiled ∧ compiled.embedded = none ∧
          Config.skipReason? test = some reason ∧
          added.skips = [.embeddedSkipped test.name reason]
  | .failed =>
      added.skips = [] ∧ Config.skipReason? test = none ∧
        ∃ compiled error, config.Returns test added compiled ∧ compiled.embedded = none ∧
          config.translator.translate .embedded test.code = .error error ∧
          added.failures = [⟨test.name, some .embedded, error⟩]
  | .complete =>
      added.skips = [] ∧ added.failures = [] ∧ Config.skipReason? test = none ∧
        ∃ compiled embedded, config.Returns test added compiled ∧
          compiled.embedded = some embedded ∧
          config.translator.translate .embedded test.code = .ok embedded.code

/-- The ending that what is added shows. -/
def Addition.ending (added : Addition) : Ending :=
  match added.compiled with
  | none => .refused
  | some compiled =>
      if compiled.embedded.isSome then .complete
      else if added.failures.isEmpty then .skipped
      else .failed

theorem Ending.Describes.eq_ending
    {config : Config}
    {test : TestCase}
    {added : Addition}
    {ending : Ending}
    (describes : ending.Describes config test added) :
    ending = added.ending := by
  cases ending with
  | refused =>
      obtain ⟨nothing, -⟩ := describes
      rw [Addition.ending, nothing]
  | skipped =>
      obtain ⟨noFailures, compiled, reason, returns, absent, -⟩ := describes
      simp [Addition.ending, returns.compiled_eq, absent, noFailures]
  | failed =>
      obtain ⟨-, -, compiled, error, returns, absent, -, failures_eq⟩ := describes
      simp [Addition.ending, returns.compiled_eq, absent, failures_eq]
  | complete =>
      obtain ⟨-, -, -, compiled, embedded, returns, present, -⟩ := describes
      simp [Addition.ending, returns.compiled_eq, present]

/-! ## The step -/

namespace Config

variable (config : Config) (declared : List String)

/-- What is returned for a test depends on the test alone. -/
theorem compileTest_fst_congr (others : List String) (context other : Context) (test : TestCase) :
    (config.compileTest declared context test).1 = (config.compileTest others other test).1 := by
  simp only [compileTest, compileEmbedded]
  cases config.translator.translate .standalone test.code with
  | error error => rfl
  | ok standalone =>
      cases skipReason? test with
      | some reason => rfl
      | none => cases config.translator.translate .embedded test.code <;> rfl

/-- What a test adds to a run with the given context. -/
def addition (context : Context) (test : TestCase) : Addition where
  compiled := (config.compileTest declared context test).1
  diagnostics :=
    (if context.hasSeen test then [.duplicateTestName test.name] else []) ++
      remarks declared test ++ config.skipRemarks test
  failures := config.failuresOf test
  images := config.imagesOf test

theorem skips_addition (context : Context) (test : TestCase) :
    (config.addition declared context test).skips = config.skipRemarks test := by
  have duplicate :
      (if context.hasSeen test then [Diagnostic.duplicateTestName test.name] else []).filter
        Diagnostic.isSkip = [] := by
    split <;> rfl
  have noSkip : (remarks declared test).filter Diagnostic.isSkip = [] := by
    rw [List.filter_eq_nil_iff]
    intro diagnostic member
    simp [(kind_of_mem_remarks member).1]
  have allSkips : (config.skipRemarks test).filter Diagnostic.isSkip = config.skipRemarks test := by
    rw [List.filter_eq_self]
    exact fun diagnostic member => (kind_of_mem_skipRemarks member).1
  rw [Addition.skips, addition, List.filter_append, List.filter_append, duplicate, noSkip,
    allSkips, List.nil_append, List.nil_append]

/-- Every test ends in one of the ways. -/
theorem exists_describes (context : Context) (test : TestCase) :
    ∃ ending : Ending,
      ending.Describes config test (config.addition declared context test) := by
  have skips_eq := config.skips_addition declared context test
  rw [skipRemarks] at skips_eq
  cases isStandalone : config.translator.translate .standalone test.code with
  | error error =>
      rw [isStandalone] at skips_eq
      refine ⟨.refused, ?_, ?_, skips_eq, error, isStandalone, ?_⟩
      · simp [addition, compileTest, isStandalone]
      · simp [addition, imagesOf, isStandalone]
      · simp [addition, failuresOf, isStandalone]
  | ok standalone =>
      have images_eq :
          config.imagesOf test = test.images.filter fun image => '/' ∉ image.toList := by
        rw [imagesOf, isStandalone]
        exact List.filter_congr fun image _ => isShared_eq image
      rw [isStandalone] at skips_eq
      let images := test.images.map config.imageRef
      cases isSkipped : skipReason? test with
      | some reason =>
          rw [isSkipped] at skips_eq
          refine ⟨.skipped, ?_, ⟨test.name, standalone, none, images⟩, reason,
            ⟨?_, rfl, isStandalone, images_eq⟩, rfl, isSkipped, skips_eq⟩
          · simp [addition, failuresOf, isStandalone, isSkipped]
          · simp [addition, compileTest, compileEmbedded, isStandalone, isSkipped, images]
      | none =>
          rw [isSkipped] at skips_eq
          cases isEmbedded : config.translator.translate .embedded test.code with
          | error error =>
              refine ⟨.failed, skips_eq, isSkipped, ⟨test.name, standalone, none, images⟩, error,
                ⟨?_, rfl, isStandalone, images_eq⟩, rfl, isEmbedded, ?_⟩
              · simp [addition, compileTest, compileEmbedded, isStandalone, isSkipped, isEmbedded,
                  images]
              · simp [addition, failuresOf, isStandalone, isSkipped, isEmbedded]
          | ok code =>
              let embedded := EmbeddedTest.ofTest test code (images.map config.embeddedImage)
              refine ⟨.complete, skips_eq, ?_, isSkipped,
                ⟨test.name, standalone, some embedded, images⟩, embedded,
                ⟨?_, rfl, isStandalone, images_eq⟩, rfl, isEmbedded⟩
              · simp [addition, failuresOf, isStandalone, isSkipped, isEmbedded]
              · simp [addition, compileTest, compileEmbedded, isStandalone, isSkipped, isEmbedded,
                  images, embedded]

/-- Compiling a test makes its addition to the context, and notes its claims and its name. -/
theorem compileTest_eq (context : Context) (test : TestCase) :
    let added := config.addition declared context test
    config.compileTest declared context test =
      (added.compiled,
        { coverage := context.coverage.record test
          images := added.images.foldl (fun known image => Context.adjoin image known)
            context.images
          names := Context.adjoin test.name context.names
          diagnostics := context.diagnostics ++ added.diagnostics
          failures := context.failures ++ added.failures }) := by
  intro added
  refine Prod.ext rfl ?_
  rw [compileTest_snd, check_eq]
  simp only [added, addition, List.append_assoc]

theorem countP_isDuplicate_addition (context : Context) (test : TestCase) :
    (config.addition declared context test).diagnostics.countP Diagnostic.isDuplicate =
      if context.hasSeen test then 1 else 0 := by
  have others : (remarks declared test).countP Diagnostic.isDuplicate = 0 := by
    rw [List.countP_eq_zero]
    intro diagnostic member
    simp [(kind_of_mem_remarks member).2]
  have skips : (config.skipRemarks test).countP Diagnostic.isDuplicate = 0 := by
    rw [List.countP_eq_zero]
    intro diagnostic member
    simp [(kind_of_mem_skipRemarks member).2]
  rw [addition, List.countP_append, List.countP_append, others, skips]
  cases context.hasSeen test <;> rfl

/-- A test is new, or a remark says that it is not. -/
theorem testsSeen_compileTest (context : Context) (test : TestCase) :
    let after := (config.compileTest declared context test).2
    after.testsSeen + after.diagnostics.countP Diagnostic.isDuplicate =
      context.testsSeen + context.diagnostics.countP Diagnostic.isDuplicate + 1 := by
  intro after
  have names_eq : after.testsSeen + (if context.hasSeen test then 1 else 0) =
      context.testsSeen + 1 := by
    simp only [after, compileTest_eq, Context.testsSeen, Context.adjoin, Context.hasSeen]
    by_cases isSeen : test.name ∈ context.names <;> simp [isSeen]
  have diagnostics_eq : after.diagnostics.countP Diagnostic.isDuplicate =
      context.diagnostics.countP Diagnostic.isDuplicate +
        if context.hasSeen test then 1 else 0 := by
    simp only [after, compileTest_eq, List.countP_append, countP_isDuplicate_addition]
  omega

/-! ## The run -/

/-- A run adds what its tests add, one behind the other, and every test ends in one way. -/
theorem compileAll_adds (context : Context) (tests : List TestCase) :
    let output := config.compileAll declared context tests
    ∃ additions : List Addition,
      List.Forall₂ (fun test added => ∃! ending : Ending, ending.Describes config test added)
        tests additions ∧
      output.1 = additions.filterMap Addition.compiled ∧
      output.2.diagnostics = context.diagnostics ++ additions.flatMap Addition.diagnostics ∧
      output.2.failures = context.failures ++ additions.flatMap Addition.failures ∧
      ∀ image, image ∈ output.2.images ↔
        image ∈ context.images ∨ image ∈ additions.flatMap Addition.images := by
  induction tests generalizing context with
  | nil => exact ⟨[], .nil, rfl, by simp [compileAll], by simp [compileAll], by simp [compileAll]⟩
  | cons test tests inductionHypothesis =>
      let added := config.addition declared context test
      have step := congrArg Prod.snd (config.compileTest_eq declared context test)
      obtain ⟨ending, describes⟩ := config.exists_describes declared context test
      have endsOnce : ∃! ending : Ending, ending.Describes config test added :=
        ⟨ending, describes, fun other describesOther =>
          describesOther.eq_ending.trans describes.eq_ending.symm⟩
      obtain ⟨additions, endings, tests_eq, diagnostics_eq, failures_eq, images_iff⟩ :=
        inductionHypothesis (config.compileTest declared context test).2
      refine ⟨added :: additions, .cons endsOnce endings, ?_, ?_, ?_, fun image => ?_⟩
      · simp only [compileAll, tests_eq, List.filterMap_cons]
        cases isCompiled : (config.compileTest declared context test).1 <;>
          simp [added, addition, isCompiled]
      · refine diagnostics_eq.trans ?_
        rw [step, List.append_assoc]
        rfl
      · refine failures_eq.trans ?_
        rw [step, List.append_assoc]
        rfl
      · refine (images_iff image).trans ?_
        rw [step, Context.mem_foldl_adjoin_iff, List.flatMap_cons, List.mem_append, or_assoc]

theorem testsSeen_compileAll (context : Context) (tests : List TestCase) :
    let after := (config.compileAll declared context tests).2
    after.testsSeen + after.diagnostics.countP Diagnostic.isDuplicate =
      context.testsSeen + context.diagnostics.countP Diagnostic.isDuplicate + tests.length := by
  induction tests generalizing context with
  | nil => rfl
  | cons test tests inductionHypothesis =>
      have step := config.testsSeen_compileTest declared context test
      have rest := inductionHypothesis (config.compileTest declared context test).2
      simp only [compileAll, List.length_cons] at step rest ⊢
      omega

/-- The compiled tests are those of the single tests. -/
theorem compileAll_fst (context : Context) (tests : List TestCase) :
    (config.compileAll declared context tests).1 =
      tests.flatMap fun test => (config.compileAll declared {} [test]).1 := by
  induction tests generalizing context with
  | nil => rfl
  | cons test tests inductionHypothesis =>
      rw [List.flatMap_cons, ← inductionHypothesis (config.compileTest declared context test).2]
      simp only [compileAll, List.append_nil]
      rw [config.compileTest_fst_congr declared declared context {} test]

/-- Whatever is known before, every test ends in exactly one of the ways and adds what that way
says, behind what the tests before it add.  Each test is compiled as it is alone, all claims are
recorded, and every test is new or remarked on as a duplicate. -/
theorem compileTests_accounts
    (context : Context)
    (tests : List TestCase)
    (assertions : List SpecAssertion) :
    let output := config.compileTests context tests assertions
    (∃ additions : List Addition,
      List.Forall₂ (fun test added => ∃! ending : Ending, ending.Describes config test added)
        tests additions ∧
      output.1 = additions.filterMap Addition.compiled ∧
      output.2.diagnostics = context.diagnostics ++ additions.flatMap Addition.diagnostics ∧
      output.2.failures = context.failures ++ additions.flatMap Addition.failures ∧
      ∀ image, image ∈ output.2.usedImages ↔
        image ∈ context.usedImages ∨ image ∈ additions.flatMap Addition.images) ∧
    output.1 = tests.flatMap (fun test => (config.compileTests {} [test] assertions).1) ∧
    (∀ id, output.2.coverage.testsFor id = context.coverage.testsFor id ++ claimants tests id ∧
      (output.2.coverage.isClaimed id = true ↔
        context.coverage.isClaimed id = true ∨ ∃ test ∈ tests, id ∈ test.testing)) ∧
    output.2.testsSeen + output.2.diagnostics.countP Diagnostic.isDuplicate =
      context.testsSeen + context.diagnostics.countP Diagnostic.isDuplicate + tests.length := by
  intro output
  let declared := assertions.map SpecAssertion.id
  have coverage_eq : output.2.coverage = tests.foldl Coverage.record context.coverage :=
    (config.compileAll_snd declared context tests).1
  refine ⟨?_, config.compileAll_fst declared context tests, fun id => ⟨?_, ?_⟩,
    config.testsSeen_compileAll declared context tests⟩
  · obtain ⟨additions, endings, tests_eq, diagnostics_eq, failures_eq, images_iff⟩ :=
      config.compileAll_adds declared context tests
    refine ⟨additions, endings, tests_eq, diagnostics_eq, failures_eq, fun image => ?_⟩
    rw [Context.usedImages, Context.usedImages, List.mem_mergeSort, List.mem_mergeSort]
    exact images_iff image
  · rw [coverage_eq, Coverage.testsFor_foldl_record]
  · rw [coverage_eq, Coverage.isClaimed_foldl_record]

end Config

end Suite
end Conformance
