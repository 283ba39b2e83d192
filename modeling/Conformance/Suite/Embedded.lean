import Conformance.TestCase
import Conformance.Text.Search

/-!
# Embedded tests

What a browser harness needs to know about a test: its names, its code and the scripts that the
code calls.
-/

namespace Conformance
namespace Suite

/-- A script of the harness that code may call. -/
inductive Helper where
  | isPixel
  | todoIsPixel
  | deferTest
  | wrapFunction
deriving DecidableEq, Inhabited, Repr

namespace Helper

/-- The name that code calls a helper by. -/
def name : Helper → String
  | .isPixel => "isPixel"
  | .todoIsPixel => "todo_isPixel"
  | .deferTest => "deferTest"
  | .wrapFunction => "wrapFunction"

/-- All helpers. -/
def all : List Helper :=
  [.isPixel, .todoIsPixel, .deferTest, .wrapFunction]

/-- The helpers that code mentions. -/
def usedBy (code : String) : List Helper :=
  all.filter fun helper => Text.occursIn helper.name.toList code.toList

end Helper

/-- An image element of a test page. -/
structure ImageRef where
  /-- The id of the element: the file name without directories. -/
  id : String
  /-- Where the image is. -/
  source : String
deriving DecidableEq, Inhabited, Repr

/-- The embedded form of a test. -/
structure EmbeddedTest where
  /-- The name of the page. -/
  fileName : String
  /-- The name that is shown, with the bug that tracks the test. -/
  displayName : String
  /-- What the test is about. -/
  description : Option String
  /-- The translated code. -/
  code : String
  /-- The helpers that the code mentions. -/
  helpers : List Helper
  /-- Whether the whole test is expected to throw. -/
  expectsException : Bool
  /-- Whether the test ends with its code. -/
  autoFinish : Bool
  /-- The images of the page. -/
  images : List ImageRef
deriving DecidableEq, Inhabited, Repr

/-- The embedded form of a test whose code is translated already. -/
def EmbeddedTest.ofTest (test : TestCase) (code : String) (images : List ImageRef) :
    EmbeddedTest where
  fileName := s!"test_{test.name}.html"
  displayName :=
    match test.flags.bind HarnessFlags.bug with
    | some bug => s!"{test.name} - bug {bug}"
    | none => test.name
  description := test.description
  code := code
  helpers := Helper.usedBy code
  expectsException := test.flags.any HarnessFlags.throws
  autoFinish := !(Helper.usedBy code).contains .deferTest
  images := images

end Suite
end Conformance
