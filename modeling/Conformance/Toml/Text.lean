/-!
# Text in configuration files

Line breaks, comments and the four kinds of strings.  Readers take what they read from the
beginning of a text and give what follows.
-/

namespace Conformance
namespace Toml

/-- Whether a character is a space or a tab. -/
def isSpace (character : Char) : Bool :=
  character == ' ' || character == '\t'

/-- Whether a character may stand in a comment: no control character but the tab. -/
def isPrintable (character : Char) : Bool :=
  character == '\t' || (0x20 ≤ character.toNat && character.toNat != 0x7F)

/-- The text without the spaces that it begins with. -/
def afterSpaces (text : List Char) : List Char :=
  text.dropWhile isSpace

theorem length_afterSpaces_le (text : List Char) : (afterSpaces text).length ≤ text.length :=
  (List.dropWhile_sublist isSpace).length_le

/-- What follows the line break that the text begins with. -/
def afterBreak? : List Char → Option (List Char)
  | '\n' :: rest => some rest
  | '\r' :: '\n' :: rest => some rest
  | _ => none

/-- The text without the comment that it begins with. -/
def afterComment (text : List Char) : List Char :=
  match text with
  | '#' :: comment => comment.dropWhile isPrintable
  | text => text

/-- What follows the end of a line: spaces, perhaps a comment, and a line break or the end of the
text. -/
def afterLineEnd? (text : List Char) : Option (List Char) :=
  match afterComment (afterSpaces text) with
  | [] => some []
  | rest => afterBreak? rest

/-- The text without the spaces, line breaks and comments that it begins with.  A comment ends with
a line break. -/
def afterBlanks? (text : List Char) : Option (List Char) :=
  match _spaces : afterSpaces text with
  | '\n' :: rest => afterBlanks? rest
  | '\r' :: '\n' :: rest => afterBlanks? rest
  | '\r' :: _ => none
  | '#' :: comment =>
      match _comment : comment.dropWhile isPrintable with
      | '\n' :: rest => afterBlanks? rest
      | '\r' :: '\n' :: rest => afterBlanks? rest
      | _ => none
  | rest => some rest
termination_by text.length
decreasing_by
  all_goals
    have spaces := length_afterSpaces_le text
    simp only [_spaces, List.length_cons] at spaces
    try
      have inner := (List.dropWhile_sublist isPrintable (l := comment)).length_le
      simp only [_comment, List.length_cons] at inner
    omega

/-- The number that hexadecimal digits write. -/
def hexadecimal? (digits : List Char) : Option Nat :=
  digits.foldlM (fun number character =>
    if character.isDigit then some (number * 16 + (character.toNat - '0'.toNat))
    else if 'a' ≤ character ∧ character ≤ 'f' then
      some (number * 16 + (character.toNat - 'a'.toNat + 10))
    else if 'A' ≤ character ∧ character ≤ 'F' then
      some (number * 16 + (character.toNat - 'A'.toNat + 10))
    else none) 0

/-- The character of a number written with hexadecimal digits. -/
def characterOf? (digits : List Char) : Option Char := do
  let number ← hexadecimal? digits
  if number.isValidChar then some (Char.ofNat number) else none

/-- The character that an escape sequence means, after the backslash, and what follows it. -/
def readEscape? : List Char → Option (Char × List Char)
  | 'b' :: rest => some ('\x08', rest)
  | 't' :: rest => some ('\t', rest)
  | 'n' :: rest => some ('\n', rest)
  | 'f' :: rest => some ('\x0c', rest)
  | 'r' :: rest => some ('\r', rest)
  | '"' :: rest => some ('"', rest)
  | '\\' :: rest => some ('\\', rest)
  | 'u' :: rest =>
      if rest.length < 4 then none else (characterOf? (rest.take 4)).map (·, rest.drop 4)
  | 'U' :: rest =>
      if rest.length < 8 then none else (characterOf? (rest.take 8)).map (·, rest.drop 8)
  | _ => none

theorem length_lt_of_readEscape?
    {text rest : List Char}
    {character : Char}
    (found : readEscape? text = some (character, rest)) :
    rest.length < text.length := by
  unfold readEscape? at found
  split at found
  all_goals first
    | (simp only [Option.some.injEq, Prod.mk.injEq] at found
       obtain ⟨-, rfl⟩ := found
       simp)
    | (split at found
       · exact nomatch found
       · simp only [Option.map_eq_some_iff, Prod.mk.injEq] at found
         obtain ⟨-, -, -, rfl⟩ := found
         simp only [List.length_drop, List.length_cons]
         omega)
    | exact nomatch found

/-- Puts a character in front of text that is read. -/
def prepend
    (character : Char)
    (read : Option (List Char × List Char)) :
    Option (List Char × List Char) :=
  read.map fun (content, rest) => (character :: content, rest)

/-- The content of a string in double quotes, after the opening one. -/
def readBasic? (text : List Char) : Option (List Char × List Char) :=
  match text with
  | [] => none
  | '"' :: rest => some ([], rest)
  | '\\' :: escaped =>
      match _escape : readEscape? escaped with
      | some (character, rest) => prepend character (readBasic? rest)
      | none => none
  | character :: rest => if isPrintable character then prepend character (readBasic? rest) else none
termination_by text.length
decreasing_by
  · have shorter := length_lt_of_readEscape? _escape
    simp only [List.length_cons]
    omega
  · simp

/-- The content of a string in single quotes, after the opening one. -/
def readLiteral? : List Char → Option (List Char × List Char)
  | [] => none
  | '\'' :: rest => some ([], rest)
  | character :: rest =>
      if isPrintable character then prepend character (readLiteral? rest) else none

/-- What follows an escaped line end, after the backslash: the spaces around the line break and
all empty lines after it do not count. -/
def afterEscapedBreak? (text : List Char) : Option (List Char) :=
  (afterBreak? (afterSpaces text)).map skipLines
where
  /-- The text without the spaces and line breaks that it begins with. -/
  skipLines : List Char → List Char
    | ' ' :: rest => skipLines rest
    | '\t' :: rest => skipLines rest
    | '\n' :: rest => skipLines rest
    | '\r' :: '\n' :: rest => skipLines rest
    | rest => rest

theorem length_skipLines_le (text : List Char) :
    (afterEscapedBreak?.skipLines text).length ≤ text.length := by
  fun_induction afterEscapedBreak?.skipLines text
  · simp only [List.length_cons]
    omega
  · simp only [List.length_cons]
    omega
  · simp only [List.length_cons]
    omega
  · simp only [List.length_cons]
    omega
  · exact Nat.le_refl _

theorem length_lt_of_afterEscapedBreak?
    {text rest : List Char}
    (found : afterEscapedBreak? text = some rest) :
    rest.length < text.length := by
  simp only [afterEscapedBreak?, Option.map_eq_some_iff] at found
  obtain ⟨inner, isInner, rfl⟩ := found
  have lines := length_skipLines_le inner
  have spaces := length_afterSpaces_le text
  unfold afterBreak? at isInner
  split at isInner
  · next equal =>
      obtain rfl := Option.some.inj isInner
      simp only [equal, List.length_cons] at spaces
      omega
  · next equal =>
      obtain rfl := Option.some.inj isInner
      simp only [equal, List.length_cons] at spaces
      omega
  · exact nomatch isInner

/-- The content of a string between three double quotes, after the opening ones.  One or two quotes
may stand in it, also in front of the closing ones. -/
def readBasicLines? (text : List Char) : Option (List Char × List Char) :=
  match text with
  | [] => none
  | '"' :: '"' :: '"' :: '"' :: '"' :: rest => some (['"', '"'], rest)
  | '"' :: '"' :: '"' :: '"' :: rest => some (['"'], rest)
  | '"' :: '"' :: '"' :: rest => some ([], rest)
  | '\\' :: escaped =>
      match _escape : readEscape? escaped with
      | some (character, rest) => prepend character (readBasicLines? rest)
      | none =>
          match _line : afterEscapedBreak? escaped with
          | some rest => readBasicLines? rest
          | none => none
  | '\r' :: '\n' :: rest => prepend '\n' (readBasicLines? rest)
  | '\n' :: rest => prepend '\n' (readBasicLines? rest)
  | character :: rest =>
      if isPrintable character then prepend character (readBasicLines? rest) else none
termination_by text.length
decreasing_by
  · have shorter := length_lt_of_readEscape? _escape
    simp only [List.length_cons]
    omega
  · have shorter := length_lt_of_afterEscapedBreak? _line
    simp only [List.length_cons]
    omega
  · simp only [List.length_cons]
    omega
  · simp
  · simp

/-- The content of a string between three single quotes, after the opening ones. -/
def readLiteralLines? : List Char → Option (List Char × List Char)
  | [] => none
  | '\'' :: '\'' :: '\'' :: '\'' :: '\'' :: rest => some (['\'', '\''], rest)
  | '\'' :: '\'' :: '\'' :: '\'' :: rest => some (['\''], rest)
  | '\'' :: '\'' :: '\'' :: rest => some ([], rest)
  | '\r' :: '\n' :: rest => prepend '\n' (readLiteralLines? rest)
  | '\n' :: rest => prepend '\n' (readLiteralLines? rest)
  | character :: rest =>
      if isPrintable character then prepend character (readLiteralLines? rest) else none

/-- The text without the line break that it may begin with. -/
def withoutBreak (text : List Char) : List Char :=
  (afterBreak? text).getD text

/-- A string of whatever kind. -/
def readString? : List Char → Option (List Char × List Char)
  | '"' :: '"' :: '"' :: rest => readBasicLines? (withoutBreak rest)
  | '"' :: rest => readBasic? rest
  | '\'' :: '\'' :: '\'' :: rest => readLiteralLines? (withoutBreak rest)
  | '\'' :: rest => readLiteral? rest
  | _ => none

example : readString? "'''\na'b''' ".toList = some (['a', '\'', 'b'], [' ']) := by
  cbv

end Toml
end Conformance
