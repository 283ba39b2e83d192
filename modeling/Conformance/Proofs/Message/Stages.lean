import Conformance.Proofs.Message.Subscripts

/-!
# Escaping in stages

A message is escaped one character after the other, with the subscripts taken out on the way.  It
comes to the same to double the backslashes of the whole text, then put one in front of every
quote, and look for subscripts only then: escaping moves no bracket, and writes none.
-/

namespace Conformance
namespace Message

/-- Replacing a single character replaces it wherever it stands. -/
theorem replace_singleton (character : Char) (replacement text : List Char) :
    Text.replace [character] replacement text =
      text.flatMap fun other => if other = character then replacement else [other] := by
  induction text with
  | nil => exact Text.replace_nil
  | cons other text inductionHypothesis =>
      rw [List.flatMap_cons]
      by_cases same : other = character
      · subst same
        have found : Text.after? [other] (other :: text) = some text :=
          Text.after?_append_self [other] text
        rw [if_pos rfl, Text.replace_of_after?_eq_some found, inductionHypothesis]
      · rw [if_neg same, Text.replace_of_after?_eq_none (Text.after?_cons_of_ne same),
          inductionHypothesis, List.singleton_append]

/-- The characters of a text, each escaped by itself: backslashes and quotes get a backslash in
front, and brackets stay. -/
def escapeCharacters (text : List Char) : List Char :=
  text.flatMap fun character => (Part.plain character).escaped

/-- Backslashes are doubled before quotes get theirs, so that no backslash is doubled twice. -/
theorem replace_quote_replace_backslash (text : List Char) :
    Text.replace ['"'] ['\\', '"'] (Text.replace ['\\'] ['\\', '\\'] text) =
      escapeCharacters text := by
  rw [replace_singleton, replace_singleton, List.flatMap_assoc]
  refine List.flatMap_congr fun character _ => ?_
  by_cases isBackslash : character = '\\'
  · simp [isBackslash, Part.escaped]
  · by_cases isQuote : character = '"'
    · simp [isQuote, Part.escaped]
    · simp [isBackslash, isQuote, escaped_plain isBackslash isQuote]

theorem escapeCharacters_cons (character : Char) (text : List Char) :
    escapeCharacters (character :: text) =
      (Part.plain character).escaped ++ escapeCharacters text :=
  List.flatMap_cons

/-- Characters without a meaning in a literal begin the escaped text where they begin the text. -/
theorem escapeCharacters_eq_append_iff
    {text front back : List Char}
    (ordinary : ∀ character ∈ front, character ≠ '\\' ∧ character ≠ '"') :
    escapeCharacters text = front ++ back ↔
      ∃ rest, text = front ++ rest ∧ escapeCharacters rest = back := by
  induction front generalizing text with
  | nil => simp
  | cons first front inductionHypothesis =>
      obtain ⟨⟨notBackslash, notQuote⟩, othersOrdinary⟩ := List.forall_mem_cons.1 ordinary
      match text with
      | [] => simp [escapeCharacters]
      | character :: text =>
          by_cases same : character = first
          · subst same
            rw [escapeCharacters_cons, escaped_plain notBackslash notQuote]
            simpa using inductionHypothesis othersOrdinary
          · have different : ∀ rest, escapeCharacters (character :: text) ≠ first :: rest := by
              intro rest
              rw [escapeCharacters_cons]
              by_cases isBackslash : character = '\\'
              · simp [isBackslash, Part.escaped, notBackslash.symm]
              · by_cases isQuote : character = '"'
                · simp [isQuote, Part.escaped, notBackslash.symm]
                · simp [escaped_plain isBackslash isQuote, same]
            simp [different, same]

/-- Escaping the characters moves no subscript, and makes none. -/
theorem subscript?_escapeCharacters_eq_some_iff {text word back : List Char} :
    subscript? (escapeCharacters text) = some (word, back) ↔
      ∃ rest, subscript? text = some (word, rest) ∧ escapeCharacters rest = back := by
  have ordinary :
      IsWord word → ∀ character ∈ '[' :: word ++ [']'], character ≠ '\\' ∧ character ≠ '"' := by
    intro isWord character member
    rw [← not_or]
    rintro (rfl | rfl)
    · have inWord : '\\' ∈ word := by simpa using member
      exact absurd (isWord.2 _ inWord) (by decide)
    · have inWord : '"' ∈ word := by simpa using member
      exact absurd (isWord.2 _ inWord) (by decide)
  have bracketed : ∀ behind, '[' :: word ++ ']' :: behind = '[' :: word ++ [']'] ++ behind := by
    simp
  simp only [subscript?_eq_some_iff]
  constructor
  · rintro ⟨text_eq, isWord⟩
    rw [bracketed] at text_eq
    obtain ⟨rest, rfl, rest_eq⟩ := (escapeCharacters_eq_append_iff (ordinary isWord)).1 text_eq
    exact ⟨rest, ⟨(bracketed rest).symm, isWord⟩, rest_eq⟩
  · rintro ⟨rest, ⟨rfl, isWord⟩, rest_eq⟩
    rw [bracketed rest, bracketed back]
    exact ⟨(escapeCharacters_eq_append_iff (ordinary isWord)).2 ⟨rest, rfl, rest_eq⟩, isWord⟩

/-- A part of text whose characters are escaped, when the subscripts are rewritten. -/
def Part.rewritten : Part → List Char
  | .plain character => [character]
  | .subscript word => (Part.subscript word).escaped

theorem parts_escaped_plain_append
    {character : Char}
    {text : List Char}
    (absent : subscript? ((Part.plain character).escaped ++ text) = none) :
    (parts ((Part.plain character).escaped ++ text)).flatMap Part.rewritten =
      (Part.plain character).escaped ++ (parts text).flatMap Part.rewritten := by
  have noBracket : ∀ other rest, other ≠ '[' → subscript? (other :: rest) = none := by
    intro other rest different
    unfold subscript?
    split
    · next same => exact absurd (List.cons.inj same).1 different
    · rfl
  by_cases isBackslash : character = '\\'
  · subst isBackslash
    simp [Part.escaped, parts_of_subscript?_eq_none (noBracket _ _ _), Part.rewritten]
  · by_cases isQuote : character = '"'
    · subst isQuote
      simp [Part.escaped, parts_of_subscript?_eq_none (noBracket _ _ _), Part.rewritten]
    · rw [escaped_plain isBackslash isQuote, List.singleton_append] at absent ⊢
      rw [parts_of_subscript?_eq_none absent]
      rfl

/-- Escaping is done in stages: backslashes, then quotes, and then the subscripts of the text that
has come about. -/
theorem escape_eq_rewritten (text : List Char) :
    escape text =
      (parts (Text.replace ['"'] ['\\', '"'] (Text.replace ['\\'] ['\\', '\\'] text))).flatMap
        Part.rewritten := by
  rw [replace_quote_replace_backslash]
  induction text using parts.induct with
  | case1 => rw [escape_nil, escapeCharacters, List.flatMap_nil, parts_nil, List.flatMap_nil]
  | case2 character text word rest found inductionHypothesis =>
      have stillFound := subscript?_escapeCharacters_eq_some_iff.2 ⟨rest, found, rfl⟩
      rw [escape_of_subscript?_eq_some found, parts_of_subscript?_eq_some stillFound,
        List.flatMap_cons, inductionHypothesis]
      rfl
  | case3 character text absent inductionHypothesis =>
      have stillAbsent : subscript? (escapeCharacters (character :: text)) = none := by
        rw [Option.eq_none_iff_forall_ne_some]
        rintro ⟨word, back⟩ found
        obtain ⟨rest, isFound, -⟩ := subscript?_escapeCharacters_eq_some_iff.1 found
        rw [absent] at isFound
        cases isFound
      rw [escapeCharacters_cons] at stillAbsent ⊢
      rw [escape_of_subscript?_eq_none absent, inductionHypothesis,
        parts_escaped_plain_append stillAbsent]

end Message
end Conformance
