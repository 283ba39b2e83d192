import Conformance.Markup.Html
import Conformance.Markup.Reference

/-!
# Escaped text

Escaping writes four characters as references by name, and resolving references gives the text
back.  Escaped text can stand between tags and between quotes: it holds none of the characters that
would end it.
-/

namespace Conformance
namespace Markup

open scoped Text

namespace Reference

/-- A reference with a name that means a character is resolved to it. -/
theorem resolveFrom_reference
    {name : List Char}
    {meant : Char}
    (plain : ∀ character ∈ name, character ≠ '&' ∧ character ≠ ';')
    (isMeant : ∀ position, resolve position name = .ok meant)
    (last position : Nat)
    (rest : List Char) :
    ∃ later, resolveFrom last position ('&' :: (name ++ ';' :: rest)) =
      (resolveFrom last later rest).map (meant :: ·) := by
  have inName : ∀ character ∈ name, (character != '&' && character != ';') = true := by
    intro character member
    simpa using plain character member
  have taken : (name ++ ';' :: rest).takeWhile (fun other => other != '&' && other != ';') =
      name := by
    rw [List.takeWhile_append_of_pos inName]
    simp
  have dropped : (name ++ ';' :: rest).dropWhile (fun other => other != '&' && other != ';') =
      ';' :: rest := by
    rw [List.dropWhile_append_of_pos inName]
    simp
  refine ⟨position + Text.byteSize name + 2, ?_⟩
  rw [resolveFrom, if_pos rfl, taken]
  split
  · next found =>
      rw [dropped, List.cons.injEq] at found
      simp only [isMeant, ← found.2]
      rfl
  · next otherwise => exact (otherwise rest dropped).elim

/-- What begins no reference is kept. -/
theorem resolveFrom_character
    {character : Char}
    (isPlain : character ≠ '&')
    (last position : Nat)
    (rest : List Char) :
    resolveFrom last position (character :: rest) =
      (resolveFrom last (position + character.utf8Size) rest).map (character :: ·) := by
  rw [resolveFrom, if_neg isPlain]
  rfl

end Reference

namespace Html

/-- A character is written as a reference by name, or as itself if it is not special. -/
theorem escapeCharacter_cases (character : Char) :
    (∃ name, escapeCharacter character = '&' :: (name ++ [';']) ∧
      name.all Char.isLower = true ∧
      ∀ position, Reference.resolve position name = .ok character) ∨
      (escapeCharacter character = [character] ∧ character ∉ ['&', '<', '>', '"']) := by
  unfold escapeCharacter
  split
  · refine .inl ⟨['a', 'm', 'p'], by simp [Text.chars_eq_toList], by decide, fun position => ?_⟩
    simp [Reference.resolve, Reference.named, Text.chars_eq_toList, List.lookup_cons]
  · refine .inl ⟨['l', 't'], by simp [Text.chars_eq_toList], by decide, fun position => ?_⟩
    simp [Reference.resolve, Reference.named, Text.chars_eq_toList]
  · refine .inl ⟨['g', 't'], by simp [Text.chars_eq_toList], by decide, fun position => ?_⟩
    simp [Reference.resolve, Reference.named, Text.chars_eq_toList, List.lookup_cons]
  · refine .inl ⟨['q', 'u', 'o', 't'], by simp [Text.chars_eq_toList], by decide, fun position => ?_⟩
    simp [Reference.resolve, Reference.named, Text.chars_eq_toList, List.lookup_cons]
  · next notAmpersand notLess notGreater notQuote =>
      refine .inr ⟨rfl, ?_⟩
      simp only [List.mem_cons, List.not_mem_nil, or_false, not_or]
      exact ⟨notAmpersand, notLess, notGreater, notQuote⟩

/-- Resolving the references in escaped text gives the text back. -/
theorem resolveFrom_escape (last position : Nat) (text : List Char) :
    Reference.resolveFrom last position (escape text) = .ok text := by
  induction text generalizing position with
  | nil => rw [escape, List.flatMap_nil, Reference.resolveFrom]
  | cons character text inductionHypothesis =>
      rw [escape, List.flatMap_cons, ← escape]
      rcases escapeCharacter_cases character with
        ⟨name, isWritten, isName, isMeant⟩ | ⟨isWritten, isPlain⟩
      · have plain : ∀ letter ∈ name, letter ≠ '&' ∧ letter ≠ ';' := by
          intro letter member
          have isLower := List.all_eq_true.1 isName letter member
          constructor <;> rintro rfl <;> cases isLower
        obtain ⟨later, step⟩ :=
          Reference.resolveFrom_reference plain isMeant last position (escape text)
        rw [isWritten, List.cons_append, List.append_assoc, List.singleton_append, step,
          inductionHypothesis]
        rfl
      · have notReference : character ≠ '&' := by
          rintro rfl
          simp at isPlain
        rw [isWritten, List.singleton_append, Reference.resolveFrom_character notReference,
          inductionHypothesis]
        rfl

theorem resolveAll_escape (text : List Char) : Reference.resolveAll (escape text) = .ok text :=
  resolveFrom_escape _ 0 text

/-- Escaped text holds neither brackets nor double quotes. -/
theorem notMem_escape
    {special : Char}
    (isSpecial : special ∈ ['<', '>', '"'])
    (text : List Char) :
    special ∉ escape text := by
  have apart : special.isLower = false ∧ special ≠ '&' ∧ special ≠ ';' := by
    simp only [List.mem_cons, List.not_mem_nil, or_false] at isSpecial
    rcases isSpecial with rfl | rfl | rfl <;> decide
  rw [escape, List.mem_flatMap]
  rintro ⟨character, _, written⟩
  rcases escapeCharacter_cases character with ⟨name, isWritten, isName, _⟩ | ⟨isWritten, isPlain⟩
  · have notInName : special ∉ name := by
      intro member
      have isLower := List.all_eq_true.1 isName special member
      rw [apart.1] at isLower
      cases isLower
    simp [isWritten, notInName, apart.2] at written
  · rw [isWritten, List.mem_singleton] at written
    subst written
    exact isPlain (List.mem_cons_of_mem '&' isSpecial)

theorem escape_ne_nil {text : List Char} (nonempty : text ≠ []) : escape text ≠ [] := by
  cases text with
  | nil => exact (nonempty rfl).elim
  | cons character text =>
      rw [escape, List.flatMap_cons]
      rcases escapeCharacter_cases character with ⟨name, isWritten, _⟩ | ⟨isWritten, _⟩ <;>
        simp [isWritten]

end Html

end Markup
end Conformance
