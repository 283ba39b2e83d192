import Conformance.SpecAssertion
import Conformance.Suite.Config
import Conformance.Suite.Context
import Conformance.Suite.Embedded

/-!
# Compiling tests

Each test is checked and translated into both dialects.  A test that fails in the standalone
dialect is left out; one that fails in the embedded dialect, or is skipped there, has no embedded
form.
-/

namespace Conformance
namespace Suite

open scoped Text

/-- A test in both dialects. -/
structure CompiledTest where
  /-- The name of the test. -/
  name : String
  /-- The code of the page of its own. -/
  standalone : String
  /-- The embedded form, if there is one. -/
  embedded : Option EmbeddedTest
  /-- The images of the page. -/
  images : List ImageRef
deriving DecidableEq, Inhabited, Repr

/-- Whether, somewhere in a body, a pixel assertion and a transparent colour stand on one line. -/
def checksTransparentPixel : List Char → Bool
  | [] => false
  | character :: text =>
      (Text.after? "@assert pixel " (character :: text)).any
        (fun rest => Text.occursIn " 0,0,0,0;" (Text.firstLine rest)) ||
      checksTransparentPixel text

/-- The remarks about a test by itself. -/
def remarks (declared : List String) (test : TestCase) : List Diagnostic :=
  (test.testing.filter fun id => !declared.contains id).map
      (Diagnostic.undeclaredAssertion test.name) ++
    (if test.testing.isEmpty then [.noAssertionRefs test.name] else []) ++
    (if test.expected = some "green" ∧ checksTransparentPixel test.code.toList then
      [.suspiciousPixelTest test.name] else [])

/-- Registers a test and notes the remarks about it. -/
def check (declared : List String) (context : Context) (test : TestCase) : Context :=
  let registered := context.register test
  let duplicate := if context.hasSeen test then [.duplicateTestName test.name] else []
  (duplicate ++ remarks declared test).foldl Context.diagnose registered

/-- Whether an image is named without its directory. -/
def isShared (image : String) : Bool :=
  !image.toList.contains '/'

/-- The file name of an image without its directories. -/
def fileName (image : String) : String :=
  String.ofList ((image.toList.splitOn '/').getLastD [])

namespace Config

/-- The image element for an image; a bare file name is that of a shared image. -/
def imageRef (config : Config) (image : String) : ImageRef where
  id := fileName image
  source := if isShared image then config.translator.sharedImageDirectory ++ image else image

/-- The image of an embedded page. -/
def embeddedImage (config : Config) (image : ImageRef) : ImageRef where
  id := image.id
  source := String.ofList
    (Text.replace config.translator.sharedImageDirectory.toList
      config.translator.embeddedImageStart.toList image.source.toList)

/-- Why a test has no embedded form. -/
def skipReason? (test : TestCase) : Option SkipReason :=
  if Text.occursIn "@manual" test.code.toList then some .manual
  else if test.isDisabledForEmbedded then some .disabled
  else none

/-- The embedded form of a test, and what becomes known. -/
def compileEmbedded
    (config : Config)
    (context : Context)
    (test : TestCase)
    (images : List ImageRef) :
    Option EmbeddedTest × Context :=
  match skipReason? test with
  | some reason => (none, context.diagnose (.embeddedSkipped test.name reason))
  | none =>
      match config.translator.translate .embedded test.code with
      | .error error => (none, context.fail test.name (some .embedded) error)
      | .ok code => (some (.ofTest test code (images.map config.embeddedImage)), context)

/-- A test in both dialects, and what becomes known. -/
def compileTest
    (config : Config)
    (declared : List String)
    (context : Context)
    (test : TestCase) :
    Option CompiledTest × Context :=
  let checked := check declared context test
  match config.translator.translate .standalone test.code with
  | .error error => (none, checked.fail test.name (some .standalone) error)
  | .ok standalone =>
      let images := test.images.map config.imageRef
      let withImages := (test.images.filter isShared).foldl Context.useImage checked
      let (embedded, context) := config.compileEmbedded withImages test images
      (some { name := test.name, standalone, embedded, images }, context)

/-- Compiles tests one after the other; `declared` holds the ids of the assertions. -/
def compileAll
    (config : Config)
    (declared : List String) :
    Context → List TestCase → List CompiledTest × Context
  | context, [] => ([], context)
  | context, test :: rest =>
      let (compiled, context) := config.compileTest declared context test
      let (others, context) := compileAll config declared context rest
      (compiled.toList ++ others, context)

/-- Compiles the tests of a suite with the given assertions. -/
def compileTests
    (config : Config)
    (context : Context)
    (tests : List TestCase)
    (assertions : List SpecAssertion) :
    List CompiledTest × Context :=
  config.compileAll (assertions.map SpecAssertion.id) context tests

end Config

end Suite
end Conformance
