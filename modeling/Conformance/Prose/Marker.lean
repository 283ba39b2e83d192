import Conformance.Keyword
import Conformance.Text.Literal
import Conformance.Text.Search

/-!
# Keyword markers

In a prose pattern a keyword between asterisks, such as `*must*`, stands for the keyword and sets
the requirement level of the statement.
-/

namespace Conformance
namespace Prose

open scoped Text

/-- A keyword between asterisks. -/
def marker (keyword : Keyword) : List Char :=
  "*" ++ keyword.text ++ "*"

/-- Prose out of which markers are taken, and the keywords that they marked. -/
structure Unmarked where
  /-- The prose. -/
  prose : List Char
  /-- The marked keywords, each as often as it was marked. -/
  keywords : List Keyword := []
deriving DecidableEq, Repr

/-- Replaces the markers of one keyword by the keyword. -/
def Unmarked.unmark (unmarked : Unmarked) (keyword : Keyword) : Unmarked where
  prose := Text.replace (marker keyword) keyword.text unmarked.prose
  keywords :=
    unmarked.keywords ++
      List.replicate (Text.occurrences (marker keyword) unmarked.prose) keyword

/-- Replaces the markers of all keywords, one keyword after the other. -/
def unmark (text : List Char) : Unmarked :=
  Keyword.marked.foldl Unmarked.unmark { prose := text }

end Prose
end Conformance
