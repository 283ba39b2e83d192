import Conformance.Proofs.Message.Subscripts

/-!
# String literals

A script joins string literals and expressions by `+`.  Between quotes, an escaped message is read
as literals with the words of the subscripts spliced in between, whatever the text holds: no quote
or backslash of the text ends a literal, and the message shows the text with the subscripts in
quotes.
-/

namespace Conformance
namespace Message

/-! ## Reading literals -/

/-- Whether a character ends a line of a script. -/
def endsLine (character : Char) : Bool :=
  ['\n', '\r', '\u2028', '\u2029'].contains character

/-- What a string literal says whose opening quote is read, and what follows its closing quote.  A
backslash takes the next character as it is.  No line ends inside a literal. -/
def literal? : List Char → Option (List Char × List Char)
  | [] => none
  | '"' :: rest => some ([], rest)
  | '\\' :: character :: rest =>
      if endsLine character then none
      else (literal? rest).map fun (content, behind) => (character :: content, behind)
  | character :: rest =>
      if endsLine character then none
      else (literal? rest).map fun (content, behind) => (character :: content, behind)

/-- The word that stands behind one literal and in front of the next, and what follows the opening
quote of that. -/
def splice? : List Char → Option (List Char × List Char)
  | '+' :: '(' :: text =>
      match text.takeWhile Text.isWord, text.dropWhile Text.isWord with
      | first :: others, ')' :: '+' :: '"' :: rest => some (first :: others, rest)
      | _, _ => none
  | _ => none

theorem length_lt_of_literal?_eq_some
    {text content rest : List Char}
    (read : literal? text = some (content, rest)) :
    rest.length < text.length := by
  fun_induction literal? text generalizing content with
  | case1 => cases read
  | case2 behind =>
      obtain ⟨rfl, rfl⟩ := Prod.mk.inj (Option.some.inj read)
      simp
  | case3 character behind _ => cases read
  | case4 character behind _ inductionHypothesis =>
      obtain ⟨⟨inside, after⟩, inner, same⟩ := Option.map_eq_some_iff.1 read
      obtain ⟨-, rfl⟩ := Prod.mk.inj same
      have shorter := inductionHypothesis inner
      simp only [List.length_cons]
      omega
  | case5 character behind _ _ _ => cases read
  | case6 character behind _ _ _ inductionHypothesis =>
      obtain ⟨⟨inside, after⟩, inner, same⟩ := Option.map_eq_some_iff.1 read
      obtain ⟨-, rfl⟩ := Prod.mk.inj same
      have shorter := inductionHypothesis inner
      simp only [List.length_cons]
      omega

theorem length_lt_of_splice?_eq_some
    {text word rest : List Char}
    (read : splice? text = some (word, rest)) :
    rest.length < text.length := by
  unfold splice? at read
  split at read
  · next inner =>
      split at read
      · next isWord isRest =>
          obtain ⟨-, rfl⟩ := Prod.mk.inj (Option.some.inj read)
          have parts := List.takeWhile_append_dropWhile (p := Text.isWord) (l := inner)
          have lengths := congrArg List.length parts
          simp only [isRest, List.length_append, List.length_cons] at lengths ⊢
          omega
      · cases read
  · cases read

/-- The words that are joined to a literal, each with what the literal behind it says. -/
def splices? (text : List Char) : Option (List (List Char × List Char)) :=
  if text.isEmpty then some []
  else
    match _isWord : splice? text with
    | none => none
    | some (word, behind) =>
        match _isLiteral : literal? behind with
        | none => none
        | some (content, rest) => (splices? rest).map ((word, content) :: ·)
termination_by text.length
decreasing_by
  have wordShorter := length_lt_of_splice?_eq_some _isWord
  have literalShorter := length_lt_of_literal?_eq_some _isLiteral
  omega

/-- String literals that are joined by words in between. -/
def Spliced.read? : List Char → Option Spliced
  | '"' :: text =>
      match literal? text with
      | none => none
      | some (content, rest) => (splices? rest).map (Spliced.mk content)
  | _ => none

/-! ## Reading a message -/

theorem literal?_plain_append
    {character : Char}
    (staysInLine : endsLine character = false)
    (rest : List Char) :
    literal? ((Part.plain character).escaped ++ rest) =
      (literal? rest).map fun (content, behind) => (character :: content, behind) := by
  by_cases isBackslash : character = '\\'
  · subst isBackslash
    simp [Part.escaped, literal?, endsLine]
  · by_cases isQuote : character = '"'
    · subst isQuote
      simp [Part.escaped, literal?, endsLine]
    · rw [escaped_plain isBackslash isQuote, List.singleton_append, literal?,
        if_neg (by simpa using staysInLine)]
      · exact isQuote
      · exact fun _ _ same => absurd same isBackslash

/-- A subscript ends a literal behind an escaped quote, and what follows begins with one. -/
theorem literal?_subscript_append (word rest : List Char) :
    literal? ((Part.subscript word).escaped ++ rest) =
      some (['[', '"'],
        '+' :: '(' :: (word ++ ')' :: '+' :: '"' :: '\\' :: '"' :: ']' :: rest)) := by
  simp [Part.escaped, Text.chars_eq_toList, literal?, endsLine]

theorem splice?_append {word : List Char} (isWord : IsWord word) (rest : List Char) :
    splice? ('+' :: '(' :: (word ++ ')' :: '+' :: '"' :: rest)) = some (word, rest) := by
  obtain ⟨nonempty, allWord⟩ := isWord
  obtain ⟨first, others, rfl⟩ := List.exists_cons_of_ne_nil nonempty
  have noWord : ¬ Text.isWord ')' = true := by decide
  rw [splice?, List.takeWhile_append_of_pos allWord, List.dropWhile_append_of_pos allWord,
    List.takeWhile_cons_of_neg noWord, List.dropWhile_cons_of_neg noWord, List.append_nil]
  rfl

theorem splices?_nil : splices? [] = some [] := by
  rw [splices?]
  rfl

theorem splices?_append
    {word behind content rest : List Char}
    (isWord : IsWord word)
    (read : literal? behind = some (content, rest)) :
    splices? ('+' :: '(' :: (word ++ ')' :: '+' :: '"' :: behind)) =
      (splices? rest).map ((word, content) :: ·) := by
  have isSplice := splice?_append isWord behind
  rw [splices?, if_neg (by simp)]
  split
  · next absent => simp [isSplice] at absent
  · next otherWord otherBehind found =>
      rw [isSplice, Option.some.injEq, Prod.mk.injEq] at found
      obtain ⟨rfl, rfl⟩ := found
      split
      · next absent => simp [read] at absent
      · next otherContent otherRest found =>
          rw [read, Option.some.injEq, Prod.mk.injEq] at found
          obtain ⟨rfl, rfl⟩ := found
          rfl

/-- Behind an opening quote and in front of a closing one, an escaped message is read as literals
around the words of its subscripts. -/
theorem exists_literal?_escape
    {source : List Char}
    (oneLine : ∀ character ∈ source, endsLine character = false) :
    let spoken := Spliced.ofParts ['[', '"'] ['"', ']'] (parts source)
    ∃ code, literal? (escape source ++ ['"']) = some (spoken.front, code) ∧
      splices? code = some spoken.later := by
  intro spoken
  induction source using parts.induct with
  | case1 =>
      refine ⟨[], ?_, ?_⟩
      · simp [spoken, escape_nil, parts_nil, Spliced.ofParts, literal?]
      · simp [spoken, parts_nil, Spliced.ofParts, splices?_nil]
  | case2 character text word rest found inductionHypothesis =>
      obtain ⟨text_eq, isWord⟩ := subscript?_eq_some_iff.1 found
      obtain ⟨code, isLiteral, areSplices⟩ := inductionHypothesis fun later member =>
        oneLine later (by simp [text_eq, member])
      simp only [spoken, parts_of_subscript?_eq_some found, Spliced.ofParts, Spliced.behindWord]
      rw [escape_of_subscript?_eq_some found, List.append_assoc, literal?_subscript_append]
      refine ⟨_, rfl, ?_⟩
      have nextLiteral : literal? ('\\' :: '"' :: ']' :: (escape rest ++ ['"'])) =
          some ('"' :: ']' :: (Spliced.ofParts ['[', '"'] ['"', ']'] (parts rest)).front,
            code) := by
        simp [literal?, endsLine, isLiteral]
      rw [splices?_append isWord nextLiteral, areSplices]
      rfl
  | case3 character text absent inductionHypothesis =>
      obtain ⟨staysInLine, laterStay⟩ := List.forall_mem_cons.1 oneLine
      obtain ⟨code, isLiteral, areSplices⟩ := inductionHypothesis laterStay
      refine ⟨code, ?_, ?_⟩
      · rw [escape_of_subscript?_eq_none absent, List.append_assoc,
          literal?_plain_append staysInLine, isLiteral, Option.map_some]
        simp only [spoken, parts_of_subscript?_eq_none absent]
        rfl
      · rw [areSplices]
        simp only [spoken, parts_of_subscript?_eq_none absent]
        rfl

/-- Between quotes, the escaped form of a text of one line is read as literals that are joined by
the words of its subscripts.  With every word in its place the literals say the text with quotes
inside the brackets of its subscripts. -/
theorem read?_quoted_escape
    (source : List Char)
    (oneLine : ∀ character ∈ source, endsLine character = false) :
    ∃ division reading : Spliced,
      (∀ other : Spliced, other.Divides source ↔ other = division) ∧
      Spliced.read? ('"' :: escape source ++ ['"']) = some reading ∧
      reading.words = division.words ∧
      reading.text [] [] = division.text ['[', '"'] ['"', ']'] := by
  obtain ⟨code, isLiteral, areSplices⟩ := exists_literal?_escape oneLine
  refine ⟨.ofParts [] [] (parts source), .ofParts ['[', '"'] ['"', ']'] (parts source),
    ?_, ?_, Spliced.words_ofParts _, Spliced.text_ofParts _⟩
  · intro other
    constructor
    · exact Spliced.Divides.eq_ofParts
    · rintro rfl
      exact Spliced.divides_ofParts source
  · rw [List.cons_append, Spliced.read?, isLiteral]
    simp only [areSplices, Option.map_some]

/-- Backslashes and quotes around brackets that are nested, unclosed or empty. -/
theorem read?_quoted_escape_brackets :
    let source :=
      ['\\', '"', '[', 'x', '[', 'i', ']', ']', '\\', '\\', '[', 'k', '_', '1', ']', '[', ']']
    (∀ character ∈ source, endsLine character = false) ∧
      ∃ reading, Spliced.read? ('"' :: escape source ++ ['"']) = some reading ∧
        reading.words = [['i'], ['k', '_', '1']] ∧
        reading.text [] [] =
          ['\\', '"', '[', 'x', '[', '"', 'i', '"', ']', ']', '\\', '\\',
            '[', '"', 'k', '_', '1', '"', ']', '[', ']'] := by
  intro source
  have oneLine : ∀ character ∈ source, endsLine character = false := by
    simp [source, endsLine]
  obtain ⟨division, reading, unique, read, words_eq, text_eq⟩ :=
    read?_quoted_escape source oneLine
  have divides : Spliced.Divides
      ⟨['\\', '"', '[', 'x'],
        [(['i'], [']', '\\', '\\']), (['k', '_', '1'], ['[', ']'])]⟩ source := by
    decide
  obtain rfl := (unique _).1 divides
  exact ⟨oneLine, reading, read, words_eq, text_eq⟩

end Message
end Conformance
