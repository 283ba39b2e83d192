import Conformance.Suite.CompiledTest
import Conformance.Suite.Report

/-!
# Suites

A run of a suite compiles the tests, annotates the standard with their claims and reports on
both.
-/

namespace Conformance
namespace Suite

open CrossReference (Findings)
open Markup (Document)

/-- All that a run produces. -/
structure Output where
  /-- The compiled tests. -/
  tests : List CompiledTest
  /-- The annotated standard. -/
  document : Document
  /-- What the annotation found out. -/
  findings : Findings
  /-- What the compilation found out. -/
  context : Context
  /-- The report on both. -/
  report : Report
deriving Inhabited

namespace Config

/-- The document with a link to the stylesheet of the configuration. -/
def addStylesheet (config : Config) (document : Document) : Document :=
  match config.document.stylesheet with
  | some address => if address.isEmpty then document else document.addStylesheet address
  | none => document

/-- Annotates the standard with the claims that are known. -/
def annotate
    (config : Config)
    (document : Document)
    (assertions : List SpecAssertion)
    (context : Context) :
    Document × Findings :=
  let (annotated, findings) :=
    config.annotator.annotate (config.addStylesheet document) assertions context.coverage
  (annotated.prepareForHtml, findings)

/-- Compiles the tests, annotates the standard and reports on both. -/
def run
    (config : Config)
    (tests : List TestCase)
    (assertions : List SpecAssertion)
    (document : Document) :
    Output :=
  let (compiled, context) := config.compileTests {} tests assertions
  let (annotated, findings) := config.annotate document assertions context
  { tests := compiled
    document := annotated
    findings := findings
    context := context
    report := Report.build assertions findings context }

end Config

end Suite
end Conformance
