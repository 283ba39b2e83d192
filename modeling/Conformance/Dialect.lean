import Conformance.Directive
import Conformance.Message
import Conformance.Text.Search
import Conformance.Value

/-!
# Dialects

The two shapes of code that a test body is translated into.  Both know the same directives; they
differ in the calls that they write for them.
-/

namespace Conformance

open scoped Text

/-- The shape of translated code. -/
inductive Dialect where
  /-- A page of its own, which checks itself. -/
  | standalone
  /-- A test inside a browser harness. -/
  | embedded
deriving DecidableEq, Inhabited, Repr

namespace Dialect

/-- The name of a dialect. -/
def name : Dialect → String
  | .standalone => "standalone"
  | .embedded => "embedded"

/-- The dialect of that name. -/
def ofName? : String → Option Dialect
  | "standalone" => some .standalone
  | "embedded" => some .embedded
  | _ => none

/-- A dialect is found by its name. -/
@[simp]
theorem ofName?_name (dialect : Dialect) : ofName? dialect.name = some dialect := by
  cases dialect <;> rfl

/-- Reads a dialect. -/
def ofValue? (value : Value) : Option Dialect :=
  value.toName?.bind ofName?

/-- Writes a dialect. -/
def toValue (dialect : Dialect) : Value :=
  .string dialect.name

end Dialect

/-- The amount by which a pixel may be off; `configured` is used where the directive leaves it to
the configuration. -/
def Tolerance.amount (configured : Nat) : Tolerance → List Char
  | .exact => "0"
  | .configured => Nat.toDigits 10 configured
  | .explicit amount => amount

namespace Directive

/-- Source text between double quotes, escaped. -/
def quoted (text : List Char) : List Char :=
  "\"" ++ Message.escape text ++ "\""

/-- The arguments that name a pixel and its colour, once as numbers and once as text. -/
def pixelArguments (coordinates color : List Char) : List Char :=
  coordinates ++ ", " ++ color ++ ", \"" ++ coordinates ++ "\", \"" ++ color ++ "\""

/-- The standalone function that compares two values. -/
def standaloneCheck : Comparison → List Char
  | .same => "_assertSame("
  | .different => "_assertDifferent("
  | .equal => "_assertEqual("
  | .matches => "_assertMatch("

/-- The standalone code of a directive. -/
def standalone (tolerance : Nat) : Directive → List Char
  | .pixel coordinates color .exact =>
      "_assertPixel(canvas, " ++ pixelArguments coordinates color ++ ");"
  | .pixel coordinates color allowed =>
      "_assertPixelApprox(canvas, " ++ pixelArguments coordinates color ++ ", " ++
        allowed.amount tolerance ++ ");"
  | .throwsTyped error statement =>
      "try \x7b var _thrown = false;\n  " ++ statement ++
        ";\n\x7d catch (e) \x7b if (e.code != DOMException." ++ error ++
        ") _fail(\"Failed assertion: expected exception of type " ++ error ++
        ", got: \"+e.message); _thrown = true; \x7d finally \x7b _assert(_thrown, " ++
        "\"should throw exception of type " ++ error ++ ": " ++ Message.escape statement ++
        "\"); \x7d"
  | .throws statement =>
      "try \x7b var _thrown = false; " ++ statement ++
        "; \x7d catch (e) \x7b _thrown = true; \x7d finally \x7b _assert(_thrown, " ++
        "\"should throw exception: " ++ Message.escape statement ++ "\"); \x7d"
  | .compare left comparison right =>
      standaloneCheck comparison ++ left ++ ", " ++ right ++ ", " ++ quoted left ++ ", " ++
        quoted right ++ ");"
  | .truthy expression => "_assert(" ++ expression ++ ", " ++ quoted expression ++ ");"
  | .manual => "_requireManualCheck();"
  | .crash => "return _crash();"
  | .universalBrowserRead => ""
  | .todo => ""
  | .nonfinite callable arguments tail => source (.nonfinite callable arguments tail)

/-- The embedded check that an expression matches a regular expression. -/
def embeddedMatch (left right : List Char) : List Char :=
  "ok(" ++ left ++ ".match(" ++ right ++ "), \"" ++ Message.escape left ++ ".match(" ++
    Message.escape right ++ ")\");"

/-- The embedded check that an expression holds. -/
def embeddedCheck (expression : List Char) : List Char :=
  "ok(" ++ expression ++ ", " ++ quoted expression ++ ");"

/-- The embedded check of a comparison.  In the harness `=~` binds loosest, whatever the operator
of the directive is. -/
def embeddedComparison
    (left : List Char)
    (comparison : Comparison)
    (right : List Char) :
    List Char :=
  match comparison with
  | .matches => embeddedMatch left right
  | other =>
      let expression := left ++ other.spaced ++ right
      match Text.splitLast? Comparison.matches.spaced expression with
      | some (subject, pattern) => embeddedMatch subject pattern
      | none => embeddedCheck expression

/-- The embedded code of a directive.  What is known to fail is still marked as such: the mark is
resolved when the statement in front of it is known. -/
def embedded (tolerance : Nat) : Directive → List Char
  | .pixel coordinates color allowed =>
      "isPixel(ctx, " ++ pixelArguments coordinates color ++ ", " ++ allowed.amount tolerance ++
        ");"
  | .throwsTyped error statement =>
      "var _thrown = undefined; try \x7b\n  " ++ statement ++
        ";\n\x7d catch (e) \x7b _thrown = e \x7d; ok(_thrown && _thrown.code == DOMException." ++
        error ++ ", \"should throw " ++ error ++ "\");"
  | .throws statement =>
      "try \x7b var _thrown = false;\n  " ++ statement ++
        ";\n\x7d catch (e) \x7b _thrown = true; \x7d finally \x7b ok(_thrown, " ++
        "\"should throw exception\"); \x7d"
  | .compare left comparison right => embeddedComparison left comparison right
  | .truthy expression => embeddedCheck expression
  | .manual => "/* manual check required */"
  | .crash => "return;"
  | .universalBrowserRead =>
      "netscape.security.PrivilegeManager.enablePrivilege('UniversalBrowserRead');"
  | .todo => " @moz-todo"
  | .nonfinite callable arguments tail => source (.nonfinite callable arguments tail)

end Directive

/-- The code of a directive in a dialect.  Calls still to be expanded stand as they are
written. -/
def Dialect.render (dialect : Dialect) (tolerance : Nat) (directive : Directive) : List Char :=
  match dialect with
  | .standalone => directive.standalone tolerance
  | .embedded => directive.embedded tolerance

end Conformance
