import Conformance.Prose.Token
import Conformance.Text.Search

/-!
# Expressions of patterns

The regular expression of a pattern is read item by item: `()` is an empty group, `.+` and `\s+`
repeat as often as they can, `\s*?` as rarely as it can, a backslash takes the meaning from the
character behind it, and a character without a meaning stands for itself.  The main statement is
that the expression of some tokens is read as these tokens, whatever characters they hold.
-/

namespace Conformance
namespace Prose
namespace Token

open scoped Text

/-- The tokens that the items of an expression stand for. -/
def ofItems? : List Char → Option (List Token)
  | [] => some []
  | '(' :: ')' :: items => (ofItems? items).map (.anchor :: ·)
  | '.' :: '+' :: items => (ofItems? items).map (.any :: ·)
  | '\\' :: 's' :: '*' :: '?' :: '\\' :: 'n' :: items => (ofItems? items).map (.lineEnd :: ·)
  | '\\' :: 's' :: '+' :: items => (ofItems? items).map (.blanks :: ·)
  | '\\' :: character :: items =>
      if character ∈ metacharacters then (ofItems? items).map (.literal character :: ·) else none
  | character :: items =>
      if character ∈ metacharacters then none else (ofItems? items).map (.literal character :: ·)

/-- The tokens that an expression stands for.  Behind the flag every character is matched by a
dot. -/
def ofExpression? (text : List Char) : Option (List Token) :=
  (Text.after? "(?s)" text).bind ofItems?

theorem ofItems?_escaped
    {character : Char}
    (isMeta : character ∈ metacharacters)
    (items : List Char) :
    ofItems? ('\\' :: character :: items) = (ofItems? items).map (.literal character :: ·) := by
  have notBlank : character ≠ 's' := by
    rintro rfl
    simp [metacharacters, Text.chars_eq_toList] at isMeta
  rw [ofItems?.eq_6 _ _ (by simp [notBlank]) (by simp [notBlank]), if_pos isMeta]

theorem ofItems?_plain
    {character : Char}
    (notMeta : character ∉ metacharacters)
    (items : List Char) :
    ofItems? (character :: items) = (ofItems? items).map (.literal character :: ·) := by
  rw [ofItems?.eq_7, if_neg notMeta]
  all_goals
    intros
    subst character
    simp [metacharacters, Text.chars_eq_toList] at notMeta

/-- The expression of a token is read as the token. -/
theorem ofItems?_expression_append (token : Token) (items : List Char) :
    ofItems? (token.expression ++ items) = (ofItems? items).map (token :: ·) := by
  cases token with
  | literal character =>
      rw [expression]
      split
      · next isMeta => exact ofItems?_escaped isMeta items
      · next notMeta => exact ofItems?_plain notMeta items
  | _ => simp [expression, Text.chars_eq_toList, ofItems?]

/-- The expression of tokens is read as these tokens. -/
theorem ofExpression?_regularExpression (tokens : List Token) :
    ofExpression? (regularExpression tokens) = some tokens := by
  rw [ofExpression?, regularExpression, Text.after?_eq_some_iff.2 rfl, Option.bind_some]
  induction tokens with
  | nil => rw [List.flatMap_nil, ofItems?]
  | cons token tokens inductionHypothesis =>
      rw [List.flatMap_cons, ofItems?_expression_append, inductionHypothesis, Option.map_some]

end Token
end Prose
end Conformance
