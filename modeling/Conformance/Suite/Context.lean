import Conformance.Coverage
import Conformance.Dialect
import Conformance.Error
import Conformance.Suite.Diagnostic

/-!
# Compilation contexts

What the compilation of several tests has in common: the claims, images and names of all tests so
far, and what was found out about them.
-/

namespace Conformance
namespace Suite

/-- A record that could not be compiled. -/
structure RecordFailure where
  /-- The name of the record. -/
  record : String
  /-- The dialect in which it failed, if that matters. -/
  dialect : Option Dialect
  /-- What was wrong. -/
  error : Error
deriving DecidableEq, Inhabited, Repr

/-- The failure in words. -/
def RecordFailure.message (failure : RecordFailure) : String :=
  match failure.dialect with
  | some dialect => s!"{failure.record} ({dialect.name}): {failure.error.message}"
  | none => s!"{failure.record}: {failure.error.message}"

/-- What is known about the tests so far. -/
structure Context where
  /-- The claims of the tests. -/
  coverage : Coverage := {}
  /-- The shared images that are used, each one once. -/
  images : List String := []
  /-- The names of the tests, each one once. -/
  names : List String := []
  /-- The remarks about the tests, in the order in which they were made. -/
  diagnostics : List Diagnostic := []
  /-- The records that could not be compiled. -/
  failures : List RecordFailure := []
deriving Inhabited

namespace Context

/-- A list to which an element is added unless it is there. -/
def adjoin (element : String) (list : List String) : List String :=
  if list.contains element then list else list ++ [element]

/-- Whether there was a test of the same name. -/
def hasSeen (context : Context) (test : TestCase) : Bool :=
  context.names.contains test.name

/-- Notes a test and its claims. -/
def register (context : Context) (test : TestCase) : Context :=
  { context with
    coverage := context.coverage.record test
    names := adjoin test.name context.names }

/-- Notes that a shared image is used. -/
def useImage (context : Context) (image : String) : Context :=
  { context with images := adjoin image context.images }

/-- Adds a remark. -/
def diagnose (context : Context) (diagnostic : Diagnostic) : Context :=
  { context with diagnostics := context.diagnostics ++ [diagnostic] }

/-- Notes a record that could not be compiled. -/
def fail
    (context : Context)
    (record : String)
    (dialect : Option Dialect)
    (error : Error) :
    Context :=
  { context with failures := context.failures ++ [⟨record, dialect, error⟩] }

/-- The shared images that are used, in the order of their names. -/
def usedImages (context : Context) : List String :=
  context.images.mergeSort fun first second => decide (first ≤ second)

/-- The number of different tests. -/
def testsSeen (context : Context) : Nat :=
  context.names.length

end Context

end Suite
end Conformance
