import Conformance.Proofs.CrossReference.Uniqueness
import Conformance.Proofs.Markup.Preparation
import Conformance.Proofs.Suite.Compilation
import Conformance.Proofs.Text.Occurrence

/-!
# Clean reports

A report is clean exactly if nothing is wrong with the tests, the assertions and the standard.  Then
every assertion has one anchor in the annotated standard, with links to the tests that claim it.
-/

namespace Conformance
namespace Suite

open CrossReference
open Markup
open Prose (Pattern)

/-! ## What a report is clean of -/

/-- A report is clean if nothing in the findings and the context is amiss. -/
theorem Report.isClean_build_iff
    (assertions : List SpecAssertion)
    (findings : Findings)
    (context : Context) :
    (Report.build assertions findings context).isClean = true ↔
      (∀ assertion ∈ assertions, findings.outcome? assertion.id ≠ some .unmatched ∧
        ¬findings.isMatchedMultiple assertion.id = true) ∧
      context.diagnostics.filterMap Diagnostic.undeclared? = [] ∧
      context.failures = [] ∧ findings.failures = [] := by
  simp only [isClean, build, Bool.and_eq_true, List.isEmpty_iff, List.filter_eq_nil_iff,
    List.append_eq_nil_iff, List.map_eq_nil_iff, List.forall_mem_map, beq_iff_eq, and_assoc,
    forall_and]

/-- A test refers to no undeclared assertion if all its claims are declared. -/
theorem undeclaredBy_eq_nil_iff {declared : List String} {test : TestCase} :
    undeclaredBy declared test = [] ↔ ∀ id ∈ test.testing, id ∈ declared := by
  simp [undeclaredBy, List.filter_eq_nil_iff]

namespace Config

variable (config : Config)

/-- A test is skipped if its code asks for a human or a flag disables it. -/
def IsSkipped (test : TestCase) : Prop :=
  Text.chars "@manual" <:+: test.code.toList ∨ ∃ flags ∈ test.flags, flags.disabled = true

theorem skipReason?_eq_none_iff {test : TestCase} :
    skipReason? test = none ↔ ¬ IsSkipped test := by
  rw [IsSkipped, not_or, ← Text.occursIn_eq_true_iff, skipReason?, TestCase.isDisabledForEmbedded]
  cases Text.occursIn (Text.chars "@manual") test.code.toList with
  | true => simp
  | false => cases test.flags <;> simp

/-- Whether a test translates into the standalone dialect and, unless it is skipped there, into the
embedded one. -/
def Translates (test : TestCase) : Prop :=
  (∃ code, config.translator.translate .standalone test.code = .ok code) ∧
    (¬ IsSkipped test →
      ∃ code, config.translator.translate .embedded test.code = .ok code)

/-- A test has no failure exactly if it translates. -/
theorem failuresOf_eq_nil_iff {test : TestCase} :
    config.failuresOf test = [] ↔ config.Translates test := by
  rw [failuresOf, Translates, ← skipReason?_eq_none_iff]
  cases config.translator.translate .standalone test.code with
  | error error => simp
  | ok standalone =>
      cases skipReason? test with
      | some reason => simp
      | none => cases config.translator.translate .embedded test.code <;> simp

/-- The units that are visited when a standard is annotated with the claims of tests. -/
def visits
    (tests : List TestCase)
    (assertions : List SpecAssertion)
    (document : Document) :
    List ProseUnit :=
  config.annotator.visits (Coverage.ofTests tests) document assertions

/-- Nothing is wrong with tests, assertions and a standard. -/
structure Sound
    (tests : List TestCase)
    (assertions : List SpecAssertion)
    (document : Document) :
    Prop where
  /-- Every claim is about a declared assertion. -/
  declared : ∀ test ∈ tests, ∀ id ∈ test.testing, id ∈ assertions.map SpecAssertion.id
  translates : ∀ test ∈ tests, config.Translates test
  compiles : ∀ assertion ∈ assertions, ∃ pattern, Pattern.ofAssertion assertion = .ok pattern
  /-- Every assertion is accepted in one unit. -/
  acceptedOnce : ∀ assertion ∈ assertions,
    (config.visits tests assertions document).countP
      (fun unit => unit.accepts config.annotator.anchorClass assertion) = 1
  /-- No two assertions are accepted at one offset of a unit. -/
  apart :
    AcceptedApart config.annotator.anchorClass (config.visits tests assertions document) assertions

end Config

/-- No assertion fails if all have a pattern. -/
theorem failures_eq_nil_iff {assertions : List SpecAssertion} :
    Annotator.failures assertions = [] ↔
      ∀ assertion ∈ assertions, ∃ pattern, Pattern.ofAssertion assertion = .ok pattern := by
  rw [Annotator.failures, List.filterMap_eq_nil_iff]
  apply forall₂_congr
  intro assertion _
  cases Pattern.ofAssertion assertion <;> simp

namespace Config

variable (config : Config)

/-! ## The standard of a run -/

theorem body?_addStylesheet (document : Document) :
    (config.addStylesheet document).body? = document.body? := by
  rw [addStylesheet]
  split
  · split
    · rfl
    · exact document.body?_addStylesheet _
  · rfl

theorem countTags_addStylesheet
    (anchorClass : String)
    (document : Document) :
    Node.countTags (fun tag => tag.hasClass anchorClass)
        [(config.addStylesheet document).root.toNode] =
      Node.countTags (fun tag => tag.hasClass anchorClass) [document.root.toNode] := by
  rw [addStylesheet]
  split
  · split
    · rfl
    · apply Document.countTags_addStylesheet
      exact Document.countTagsIn_stylesheetLink anchorClass _
  · rfl

/-- A link to a stylesheet changes nothing about which units are visited. -/
theorem visits_addStylesheet
    (tests : List TestCase)
    (assertions : List SpecAssertion)
    (document : Document) :
    config.annotator.visits (Coverage.ofTests tests) (config.addStylesheet document) assertions =
      config.visits tests assertions document := by
  rw [visits, Annotator.visits, Annotator.visits, Annotator.units, Annotator.units,
    body?_addStylesheet]

/-- Preparing the annotated standard for HTML keeps the elements of the class of anchors. -/
theorem elements_run
    {anchorClass id : String}
    {document : Document}
    (noAnchors :
      Node.countTags (fun tag => tag.hasClass anchorClass) [document.root.toNode] = 0)
    (assertions : List SpecAssertion)
    (coverage : Coverage) :
    let annotated := (config.annotator.annotate document assertions coverage).1
    Node.elements (isAnchorOf anchorClass id) [annotated.prepareForHtml.root.toNode] =
      Node.elements (isAnchorOf anchorClass id) [annotated.root.toNode] := by
  intro annotated
  have onlyAnchors (tag : Tag) (isAnchor : isAnchorOf anchorClass id tag = true) :
      tag.hasClass anchorClass = true :=
    (Bool.and_eq_true_iff.1 isAnchor).1
  have absent := Node.countTags_eq_zero_of_imp onlyAnchors _ noAnchors
  simp only [Element.toNode, Node.countTags, Node.countTagsIn, Nat.add_eq_zero_iff] at absent
  have notAsked {tag : Tag} (none : (if isAnchorOf anchorClass id tag then 1 else 0) = 0) :
      isAnchorOf anchorClass id tag = false := by
    simpa using none
  apply Document.elements_prepareForHtml
  · intro tag
    rw [Annotator.isAnchorOf_eq]
    simp only [Tag.hasClass, Tag.classes]
    rw [Document.attribute?_htmlTag (by decide) (by decide),
      Document.attribute?_htmlTag (by decide) (by decide)]
  · have noClass : ({ name := "meta", attributes := [("charset", "UTF-8")] } : Tag).hasClass
        anchorClass = false :=
      Tag.hasClass_of_attribute?_eq_none rfl anchorClass
    simp [Document.encodingDeclaration, Node.elementsIn, Node.elements, isAnchorOf, noClass]
  · rw [config.annotator.tag_root_annotate]
    exact notAsked absent.1.1
  · intro head isHead
    rw [config.annotator.child?_annotate_of_ne coverage (by decide)] at isHead
    have noneInHead := Node.countTagsIn_eq_zero_of_mem absent.1.2
      (Element.mem_children_of_child?_eq_some isHead)
    simp only [Element.toNode, Node.countTagsIn, Nat.add_eq_zero_iff] at noneInHead
    exact notAsked noneInHead.1

/-- A report is clean exactly if nothing is wrong with the tests, the assertions and the standard;
then the annotated standard has one anchor of every assertion, with links to the tests that claim
it. -/
theorem isClean_run_iff
    (isToken : Text.IsToken config.annotator.anchorClass)
    (tests : List TestCase)
    {assertions : List SpecAssertion}
    (distinct : (assertions.map SpecAssertion.id).Nodup)
    {document : Document}
    (noAnchors :
      Node.countTags (fun tag => tag.hasClass config.annotator.anchorClass)
        [document.root.toNode] = 0) :
    let anchorClass := config.annotator.anchorClass
    let output := config.run tests assertions document
    (output.report.isClean = true ↔ config.Sound tests assertions document) ∧
      (output.report.isClean = true → ∀ assertion ∈ assertions,
        ∃ (anchor : Element) (pattern : Pattern),
          Pattern.ofAssertion assertion = .ok pattern ∧
          anchor.toNode =
            config.annotator.anchor (Coverage.ofTests tests) assertion.id pattern.keyword ∧
          Node.elements
              (fun tag => tag.hasClass anchorClass &&
                tag.attribute? "id" == some (anchorClass ++ "." ++ assertion.id))
              [output.document.root.toNode] = [anchor] ∧
          Annotator.linkedTests anchor = claimants tests assertion.id) := by
  intro anchorClass output
  obtain ⟨coverage_eq, undeclared_eq, failures_eq⟩ := config.context_run tests assertions document
  have noAnchorsLinked := (config.countTags_addStylesheet anchorClass document).trans noAnchors
  have inside : Node.countTags (fun tag => tag.hasClass anchorClass)
      (config.addStylesheet document).root.children = 0 := by
    simp only [Element.toNode, Node.countTags, Node.countTagsIn, Nat.add_eq_zero_iff]
      at noAnchorsLinked
    exact noAnchorsLinked.1.2
  have report_eq : output.report = Report.build assertions
      (config.annotator.annotate (config.addStylesheet document) assertions
        output.context.coverage).2 output.context :=
    rfl
  have document_eq : output.document =
      (config.annotator.annotate (config.addStylesheet document) assertions
        output.context.coverage).1.prepareForHtml :=
    rfl
  have isClean_iff : output.report.isClean = true ↔ config.Sound tests assertions document := by
    have foundOnce := Annotator.foundOnce_iff inside distinct (Coverage.ofTests tests)
    simp only [visits_addStylesheet] at foundOnce
    rw [report_eq, Report.isClean_build_iff, coverage_eq, undeclared_eq, failures_eq, foundOnce,
      Annotator.failures_annotate, failures_eq_nil_iff, List.flatMap_eq_nil_iff,
      List.flatMap_eq_nil_iff]
    simp only [undeclaredBy_eq_nil_iff, failuresOf_eq_nil_iff]
    constructor
    · rintro ⟨⟨acceptedOnce, apart⟩, declared, translates, compiles⟩
      exact ⟨declared, translates, compiles, acceptedOnce, apart⟩
    · rintro ⟨declared, translates, compiles, acceptedOnce, apart⟩
      exact ⟨⟨acceptedOnce, apart⟩, declared, translates, compiles⟩
  refine ⟨isClean_iff, ?_⟩
  intro isClean assertion listed
  obtain ⟨_, _, _, acceptedOnce, apart⟩ := isClean_iff.1 isClean
  rw [← visits_addStylesheet] at acceptedOnce apart
  obtain ⟨anchor, pattern, compiles, anchor_eq, elements_eq⟩ :=
    Annotator.exists_elements_annotate_eq isToken noAnchorsLinked distinct
      (Coverage.ofTests tests) apart listed (acceptedOnce assertion listed)
  refine ⟨anchor, pattern, compiles, anchor_eq, ?_, ?_⟩
  · rw [document_eq, coverage_eq, ← Annotator.isAnchorOf_eq, elements_run _ noAnchorsLinked]
    exact elements_eq
  · rw [Annotator.linkedTests_eq anchor_eq, Coverage.testsFor_ofTests]

/-- Two tests that claim the only assertion are linked from its anchor.  The report is clean
although the second one does not translate for the harness, since it is skipped there. -/
theorem isClean_run_iff_claimed :
    let config : Config := {}
    let anchorClass := config.annotator.anchorClass
    let lines : TestCase := { name := "lines", code := "draw();", testing := ["draw"] }
    let shown : TestCase :=
      { name := "shown", code := "@manual; @assert throws draw(); @moz-todo", testing := ["draw"] }
    let assertion : SpecAssertion := { id := "draw", text := "must<^> draw" }
    let paragraph : Node := .element { name := "p" } [.text "It must draw."]
    let document : Document :=
      ⟨{ name := "html" },
        [.element { name := "head" } [], .element { name := "body" } [paragraph]]⟩
    let output := config.run [lines, shown] [assertion] document
    Text.IsToken anchorClass ∧ ([assertion].map SpecAssertion.id).Nodup ∧
      Node.countTags (fun tag => tag.hasClass anchorClass) [document.root.toNode] = 0 ∧
      (config.translator.translate .embedded shown.code).isOk = false ∧ IsSkipped shown ∧
      output.report.isClean = true ∧ config.Sound [lines, shown] [assertion] document ∧
      ∃ anchor : Element,
        Node.elements
          (fun tag => tag.hasClass anchorClass &&
            tag.attribute? "id" == some (anchorClass ++ "." ++ "draw"))
          [output.document.root.toNode] = [anchor] ∧
        Annotator.linkedTests anchor = ["lines", "shown"] := by
  intro config anchorClass lines shown assertion paragraph document output
  have isToken : Text.IsToken anchorClass := by decide
  have distinct : ([assertion].map SpecAssertion.id).Nodup := by decide
  have noAnchors :
      Node.countTags (fun tag => tag.hasClass anchorClass) [document.root.toNode] = 0 := by
    decide +kernel
  have notTranslated : (config.translator.translate .embedded shown.code).isOk = false := by
    decide +kernel
  have isSkipped : IsSkipped shown := by
    refine .inl (Text.occursIn_eq_true_iff.1 ?_)
    decide +kernel
  have isClean : output.report.isClean = true := by decide +kernel
  obtain ⟨isClean_iff, anchors⟩ := config.isClean_run_iff isToken [lines, shown] distinct noAnchors
  obtain ⟨anchor, _, _, _, elements_eq, links_eq⟩ :=
    anchors isClean assertion List.mem_cons_self
  have claimed : claimants [lines, shown] "draw" = ["lines", "shown"] := by decide
  exact ⟨isToken, distinct, noAnchors, notTranslated, isSkipped, isClean, isClean_iff.1 isClean,
    anchor, elements_eq, links_eq.trans claimed⟩

end Config

end Suite
end Conformance
