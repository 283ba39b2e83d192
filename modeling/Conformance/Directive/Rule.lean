import Conformance.Directive
import Conformance.Text.Blank
import Conformance.Text.DecimalDigit
import Conformance.Text.Search

/-!
# Rules for directives

Each stage has its rules in a fixed order, and the first rule that matches at the beginning of a
text says which directive stands there.  A rule has a pattern with groups and builds the directive
from what the groups hold.  Runs in a pattern are greedy: they are tried as long as possible first,
and give characters back only when the rest of the pattern fails.
-/

namespace Conformance

open scoped Text

/-- The two passes over a body.  Calls are expanded before assertions are rendered, because the
expanded calls may stand in assertions of their own. -/
inductive Stage where
  | expansion
  | directive
deriving DecidableEq, Inhabited, Repr

namespace Directive

/-! ## Patterns -/

/-- The ways to take a run of accepted characters from the front, the longest one first. -/
def runs (accept : Char → Bool) : List Char → List (List Char × List Char)
  | [] => [([], [])]
  | character :: text =>
      if accept character then
        (runs accept text).map (fun (run, rest) => (character :: run, rest)) ++
          [([], character :: text)]
      else [([], character :: text)]

/-- What a group is made of. -/
inductive Atom where
  /-- These characters. -/
  | chars (spelling : List Char)
  /-- A run of accepted characters, with at least so many of them. -/
  | run (accept : Char → Bool) (least : Nat)

/-- The ways to take an atom from the front, the preferred one first. -/
def Atom.ways : Atom → List Char → List (List Char × List Char)
  | .chars spelling, text => ((Text.after? spelling text).map (spelling, ·)).toList
  | .run accept least, text =>
      (runs accept text).filter fun (taken, _) => decide (least ≤ taken.length)

/-- The ways to take atoms one behind the other from the front, the preferred one first. -/
def waysThrough : List Atom → List Char → List (List Char × List Char)
  | [], text => [([], text)]
  | atom :: atoms, text =>
      (atom.ways text).flatMap fun (taken, rest) =>
        (waysThrough atoms rest).map fun (further, behind) => (taken ++ further, behind)

/-- What a pattern is made of. -/
inductive Part where
  /-- These characters, of which nothing is kept. -/
  | chars (spelling : List Char)
  /-- A group, which keeps what it takes. -/
  | group (atoms : List Atom)

/-- What the groups hold in the preferred match at the beginning of a text, and what follows the
match. -/
def match? : List Part → List Char → Option (List (List Char) × List Char)
  | [], text => some ([], text)
  | .chars spelling :: parts, text => (Text.after? spelling text).bind (match? parts)
  | .group atoms :: parts, text =>
      (waysThrough atoms text).findSome? fun (group, rest) =>
        (match? parts rest).map fun (groups, behind) => (group :: groups, behind)

/-! ## Rules -/

/-- An entry in the table of a stage. -/
structure Rule where
  /-- The name of the rule. -/
  name : String
  /-- What the directive looks like. -/
  pattern : List Part
  /-- Builds the directive from the groups, which are counted from 1. -/
  build : (group : Nat → List Char) → Directive
  /-- Whether the directive takes the space in front of it along. -/
  absorbsLeadingSpace : Bool := false

/-- The directive that a rule finds at the beginning of a text, and what follows it. -/
def Rule.find? (rule : Rule) (text : List Char) : Option (Directive × List Char) :=
  (match? rule.pattern text).map fun (groups, rest) =>
    (rule.build fun index => groups.getD (index - 1) [], rest)

/-- The first rule that matches at the beginning of a text, with its directive and what follows. -/
def matchRules?
    (rules : List Rule)
    (text : List Char) :
    Option (Rule × Directive × List Char) :=
  rules.findSome? fun rule => (rule.find? text).map (rule, ·)

/-- Everything up to a later place on the line. -/
def anything : Atom :=
  .run (· != '\n') 0

/-- A number. -/
def digits : Atom :=
  .run Text.isDecimalDigit 1

/-- Numbers with as many commas between them. -/
def numbers : (commas : Nat) → List Atom
  | 0 => [digits]
  | commas + 1 => digits :: .chars "," :: numbers commas

/-- The name of an exception code. -/
def errorName : List Atom :=
  [.run (fun character => !Text.isBlank character) 1, .chars "_ERR"]

/-- The rules of the first stage. -/
def expansionRules : List Rule :=
  [{ name := "nonfinite"
     pattern := [.chars "@nonfinite ",
       .group [.run (fun character => character != '(' && character != '\n') 1], .chars "(",
       .group [.run (fun character => character != ')' && character != '\n') 0], .chars ")",
       .group [anything]]
     build := fun group => .nonfinite (group 1) (group 2) (group 3) }]

/-- A rule for a pixel, with what stands between the coordinates and the colour, and behind them. -/
def pixelRule
    (name : String)
    (operator : List Char)
    (ending : List Part)
    (allowed : (group : Nat → List Char) → Tolerance) :
    Rule where
  name := name
  pattern := .chars "@assert pixel " :: .group (numbers 1) :: .chars operator ::
    .group (numbers 3) :: ending
  build := fun group => .pixel (group 1) (group 2) (allowed group)

/-- The rules for pixels. -/
def pixelRules : List Rule :=
  [pixelRule "pixel" " == " [.chars ";"] fun _ => .exact,
   pixelRule "pixel-approx" " ==~ " [.chars ";"] fun _ => .configured,
   pixelRule "pixel-approx-tolerance" " ==~ " [.chars " +/- ", .group [digits], .chars ";"]
     fun group => .explicit (group 3)]

/-- A rule for two expressions that compare. -/
def comparisonRule (name : String) (comparison : Comparison) : Rule where
  name := name
  pattern := [.chars "@assert ", .group [anything], .chars comparison.spaced, .group [anything],
    .chars ";"]
  build := fun group => .compare (group 1) comparison (group 2)

/-- The rule for a statement that throws an exception with a certain code. -/
def throwsTypedRule : Rule where
  name := "throws-typed"
  pattern := [.chars "@assert throws ", .group errorName, .chars " ", .group [anything],
    .chars ";"]
  build := fun group => .throwsTyped (group 1) (group 2)

/-- The rule for a statement that throws an exception. -/
def throwsRule : Rule where
  name := "throws"
  pattern := [.chars "@assert throws ", .group [anything], .chars ";"]
  build := fun group => .throws (group 1)

/-- The rule for an expression that holds. -/
def truthyRule : Rule where
  name := "truthy"
  pattern := [.chars "@assert ", .group [anything], .chars ";"]
  build := fun group => .truthy (group 1)

/-- The rules for comparisons.  The left operand reaches up to the last operator. -/
def comparisonRules : List Rule :=
  [comparisonRule "same" .same, comparisonRule "different" .different,
   comparisonRule "equal" .equal, comparisonRule "match" .matches]

/-- The rules for the assertions that are not about a pixel.  They reach up to the last semicolon of
the line. -/
def statementRules : List Rule :=
  throwsTypedRule :: throwsRule :: (comparisonRules ++ [truthyRule])

/-- A rule for a directive without operands. -/
def markerRule (name : String) (spelling : List Char) (marker : Directive) : Rule where
  name := name
  pattern := [.chars spelling]
  build := fun _ => marker

/-- The rules for directives without operands. -/
def markerRules : List Rule :=
  [markerRule "manual" "@manual;" .manual,
   markerRule "crash" "@crash;" .crash,
   markerRule "universal-browser-read" "@moz-UniversalBrowserRead;" .universalBrowserRead,
   { markerRule "todo" "@moz-todo" .todo with absorbsLeadingSpace := true }]

/-- The rules of the second stage, the more specific ones first. -/
def directiveRules : List Rule :=
  pixelRules ++ statementRules ++ markerRules

end Directive

/-- The rules of a stage. -/
def Stage.rules : Stage → List Directive.Rule
  | .expansion => Directive.expansionRules
  | .directive => Directive.directiveRules

end Conformance
