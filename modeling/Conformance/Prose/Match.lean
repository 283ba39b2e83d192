import Conformance.Prose.Token

/-!
# Matching prose

`anchor?` says where a match puts the anchor: the tokens are matched one after the other, each
choice in its preferred order.  `table` holds the answers for all places of a text at once, and
takes time proportional to the lengths of pattern and text.  The main statement is that the two
agree.
-/

namespace Conformance
namespace Prose

/-- What follows the anchor in the preferred match of the tokens at the beginning of the text; the
end of the match if there is no anchor among them. -/
def anchor? : List Token → List Char → Option (List Char)
  | [], text => some text
  | .anchor :: tokens, text => (anchor? tokens text).map fun _ => text
  | .any :: tokens, _ :: text => anchor? (.any :: tokens) text <|> anchor? tokens text
  | .lineEnd :: tokens, character :: text =>
      (if character = '\n' then anchor? tokens text else none) <|>
        (if Text.isBlank character then anchor? (.lineEnd :: tokens) text else none)
  | .blanks :: tokens, character :: text =>
      if Text.isBlank character then anchor? (.blanks :: tokens) text <|> anchor? tokens text
      else none
  | .literal expected :: tokens, character :: text =>
      if character = expected then anchor? tokens text else none
  | _ :: _, [] => none
termination_by tokens text => (tokens.length, text.length)

/-- The endings of a text, from the whole of it to the empty one. -/
def endings : List Char → List (List Char)
  | [] => [[]]
  | character :: text => (character :: text) :: endings text

/-- One answer of a token's row.  `here` and `next` are the answers of the tokens that follow, at
this place and one character on; `again` is the answer of the token itself one character on. -/
def Token.entry
    (token : Token)
    (text : List Char)
    (here next again : Option (List Char)) :
    Option (List Char) :=
  match token, text with
  | .anchor, _ => here.map fun _ => text
  | .any, _ :: _ => again <|> next
  | .lineEnd, character :: _ =>
      (if character = '\n' then next else none) <|> (if Text.isBlank character then again else none)
  | .blanks, character :: _ => if Text.isBlank character then again <|> next else none
  | .literal expected, character :: _ => if character = expected then next else none
  | _, [] => none

/-- The answers at every ending of the text when a token is put in front of tokens whose answers
are known. -/
def Token.row (token : Token) : List Char → List (Option (List Char)) → List (Option (List Char))
  | [], answers => [token.entry [] answers.head?.join none none]
  | character :: text, answers =>
      let later := token.row text answers.tail
      token.entry (character :: text) answers.head?.join answers.tail.head?.join
        later.head?.join :: later

/-- The answers at every ending of the text. -/
def table (text : List Char) : List Token → List (Option (List Char))
  | [] => (endings text).map some
  | token :: tokens => token.row text (table text tokens)

theorem head?_map_endings (tokens : List Token) (text : List Char) :
    ((endings text).map (anchor? tokens)).head?.join = anchor? tokens text := by
  cases text <;> rfl

theorem Token.row_eq (token : Token) (tokens : List Token) (text : List Char) :
    token.row text ((endings text).map (anchor? tokens)) =
      (endings text).map (anchor? (token :: tokens)) := by
  induction text with
  | nil => cases token <;> simp [Token.row, endings, Token.entry, anchor?]
  | cons character text inductionHypothesis =>
      simp only [Token.row, endings, List.map_cons, List.tail_cons, inductionHypothesis,
        head?_map_endings, List.head?_cons, Option.join_some, List.cons.injEq, and_true]
      cases token <;> simp [Token.entry, anchor?]

/-- The table holds the anchors of the matches at every ending of the text. -/
theorem table_eq (text : List Char) (tokens : List Token) :
    table text tokens = (endings text).map (anchor? tokens) := by
  induction tokens with
  | nil => exact List.map_congr_left fun ending _ => by rw [anchor?]
  | cons token tokens inductionHypothesis =>
      rw [table, inductionHypothesis, Token.row_eq]

/-- What follows the anchor in the first match in the text. -/
def find? (tokens : List Token) (text : List Char) : Option (List Char) :=
  (table text tokens).findSome? id

end Prose
end Conformance
