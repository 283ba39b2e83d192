import Conformance.Text.Literal

/-!
# Directives

The directives that a test body may hold.  Each one begins with `@`.  `source` gives a directive
as it is written in a body.
-/

namespace Conformance

open scoped Text

/-- How two sides of an assertion are compared. -/
inductive Comparison where
  | same
  | different
  | equal
  | matches
deriving DecidableEq, Inhabited, Repr

namespace Comparison

/-- The operator that stands between the two sides. -/
def symbol : Comparison → String
  | .same => "==="
  | .different => "!=="
  | .equal => "=="
  | .matches => "=~"

/-- The operator with a space on either side. -/
def spaced (comparison : Comparison) : List Char :=
  " " ++ comparison.symbol ++ " "

/-- The comparisons in the order in which their operators are looked for. -/
def all : List Comparison :=
  [.same, .different, .equal, .matches]

end Comparison

/-- How far a pixel may be off. -/
inductive Tolerance where
  /-- Not at all. -/
  | exact
  /-- As far as the configuration says. -/
  | configured
  /-- As far as the directive says. -/
  | explicit (amount : List Char)
deriving DecidableEq, Inhabited, Repr

/-- A directive with its operands as they are written. -/
inductive Directive where
  /-- The calls at the boundaries of some arguments. -/
  | nonfinite (callable arguments tail : List Char)
  /-- A pixel has a colour. -/
  | pixel (coordinates color : List Char) (tolerance : Tolerance)
  /-- A statement throws an exception with a certain code. -/
  | throwsTyped (error statement : List Char)
  /-- A statement throws an exception. -/
  | throws (statement : List Char)
  /-- Two expressions compare. -/
  | compare (left : List Char) (comparison : Comparison) (right : List Char)
  /-- An expression holds. -/
  | truthy (expression : List Char)
  /-- A human has to look at the result. -/
  | manual
  /-- The test is known to bring the browser down. -/
  | crash
  /-- The code needs a privilege. -/
  | universalBrowserRead
  /-- The assertion before is known to fail. -/
  | todo
deriving DecidableEq, Inhabited, Repr

namespace Directive

/-- The directive as it is written. -/
def source : Directive → List Char
  | .nonfinite callable arguments tail =>
      "@nonfinite " ++ callable ++ "(" ++ arguments ++ ")" ++ tail
  | .pixel coordinates color .exact => "@assert pixel " ++ coordinates ++ " == " ++ color ++ ";"
  | .pixel coordinates color .configured =>
      "@assert pixel " ++ coordinates ++ " ==~ " ++ color ++ ";"
  | .pixel coordinates color (.explicit amount) =>
      "@assert pixel " ++ coordinates ++ " ==~ " ++ color ++ " +/- " ++ amount ++ ";"
  | .throwsTyped error statement => "@assert throws " ++ error ++ " " ++ statement ++ ";"
  | .throws statement => "@assert throws " ++ statement ++ ";"
  | .compare left comparison right =>
      "@assert " ++ left ++ comparison.spaced ++ right ++ ";"
  | .truthy expression => "@assert " ++ expression ++ ";"
  | .manual => "@manual;"
  | .crash => "@crash;"
  | .universalBrowserRead => "@moz-UniversalBrowserRead;"
  | .todo => "@moz-todo"

/-- The name of the rule that a directive is recognised by. -/
def ruleName : Directive → String
  | .nonfinite .. => "nonfinite"
  | .pixel _ _ .exact => "pixel"
  | .pixel _ _ .configured => "pixel-approx"
  | .pixel _ _ (.explicit _) => "pixel-approx-tolerance"
  | .throwsTyped .. => "throws-typed"
  | .throws _ => "throws"
  | .compare _ .same _ => "same"
  | .compare _ .different _ => "different"
  | .compare _ .equal _ => "equal"
  | .compare _ .matches _ => "match"
  | .truthy _ => "truthy"
  | .manual => "manual"
  | .crash => "crash"
  | .universalBrowserRead => "universal-browser-read"
  | .todo => "todo"

/-- Whether the directive takes the space in front of it along. -/
def absorbsLeadingSpace : Directive → Bool
  | .todo => true
  | _ => false

/-- A written directive is not empty. -/
theorem source_ne_nil (directive : Directive) : directive.source ≠ [] := by
  unfold source
  split <;> simp [Text.chars_eq_toList]

end Directive

end Conformance
