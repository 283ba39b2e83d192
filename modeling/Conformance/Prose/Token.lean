import Conformance.Text.Blank
import Conformance.Text.Literal

/-!
# Tokens of a prose pattern

A pattern is literal prose with a few placeholders: white space stands for one or more blanks,
`<...>` for any nonempty text, `<eol>` for blanks that end in a line break, and `<^>` for the
place of the anchor.
-/

namespace Conformance
namespace Prose

open scoped Text

/-- A token of a prose pattern. -/
inductive Token where
  /-- The place of the anchor. -/
  | anchor
  /-- A nonempty text, as long as possible. -/
  | any
  /-- Blanks, as few as possible, and a line break. -/
  | lineEnd
  /-- One or more blanks, as many as possible. -/
  | blanks
  /-- A character that stands for itself. -/
  | literal (character : Char)
deriving DecidableEq, Inhabited, Repr

namespace Token

/-- What is left of a text without the blanks that it begins with. -/
def afterBlanks (text : List Char) : List Char :=
  text.dropWhile Text.isBlank

theorem length_afterBlanks_le (text : List Char) : (afterBlanks text).length ≤ text.length :=
  (List.dropWhile_sublist Text.isBlank).length_le

/-- The tokens of prose. -/
def ofProse : List Char → List Token
  | [] => []
  | '<' :: '^' :: '>' :: text => .anchor :: ofProse text
  | '<' :: '.' :: '.' :: '.' :: '>' :: text => .any :: ofProse text
  | '<' :: 'e' :: 'o' :: 'l' :: '>' :: text => .lineEnd :: ofProse text
  | character :: text =>
      if Text.isBlank character then .blanks :: ofProse (afterBlanks text)
      else .literal character :: ofProse text
termination_by prose => prose.length
decreasing_by
  all_goals
    have := length_afterBlanks_le text
    simp only [List.length_cons]
    omega

/-- The characters that a regular expression gives a meaning of its own. -/
def metacharacters : List Char :=
  "\\.+*?()|[]\x7b\x7d^$#&-~"

/-- The token as part of a regular expression. -/
def expression : Token → List Char
  | .anchor => "()"
  | .any => ".+"
  | .lineEnd => "\\s*?\\n"
  | .blanks => "\\s+"
  | .literal character =>
      if character ∈ metacharacters then ['\\', character] else [character]

/-- The regular expression of a pattern, in which any character may be a line break. -/
def regularExpression (tokens : List Token) : List Char :=
  "(?s)" ++ tokens.flatMap expression

end Token

end Prose
end Conformance
