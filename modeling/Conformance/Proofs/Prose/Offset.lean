import Conformance.Prose.Pattern
import Conformance.Proofs.Text.Boundary

/-!
# Offsets of matches

What follows the anchor of a match is an ending of the text, so the offset of a pattern falls
between two characters of the text.
-/

namespace Conformance
namespace Prose

theorem eq_some_or_of_orElse_eq_some
    {Item : Type}
    {first second : Option Item}
    {item : Item}
    (found : (first <|> second) = some item) :
    first = some item ∨ second = some item := by
  cases first with
  | none => exact .inr (by simpa using found)
  | some other => exact .inl (by simpa using found)

/-- What follows the anchor is an ending of the text. -/
theorem suffix_of_anchor?_eq_some
    {tokens : List Token}
    {text rest : List Char}
    (found : anchor? tokens text = some rest) :
    rest <:+ text := by
  fun_induction anchor? tokens text generalizing rest with
  | case1 text =>
      cases found
      exact List.suffix_refl text
  | case2 tokens text inductionHypothesis =>
      obtain ⟨_, _, rfl⟩ := Option.map_eq_some_iff.1 found
      exact List.suffix_refl text
  | case3 tokens character text longer shorter =>
      rcases eq_some_or_of_orElse_eq_some found with further | here
      · exact (longer further).trans (List.suffix_cons character text)
      · exact (shorter here).trans (List.suffix_cons character text)
  | case4 tokens character text here further =>
      rcases eq_some_or_of_orElse_eq_some found with isBreak | isBlank
      · split at isBreak
        · exact (here isBreak).trans (List.suffix_cons character text)
        · cases isBreak
      · split at isBlank
        · exact (further isBlank).trans (List.suffix_cons character text)
        · cases isBlank
  | case5 tokens character text isBlank longer shorter =>
      rcases eq_some_or_of_orElse_eq_some found with further | here
      · exact (longer further).trans (List.suffix_cons character text)
      · exact (shorter here).trans (List.suffix_cons character text)
  | case6 tokens character text notBlank => cases found
  | case7 tokens character text inductionHypothesis =>
      exact (inductionHypothesis found).trans (List.suffix_cons character text)
  | case8 expected tokens character text different => cases found
  | case9 token tokens notAnchor => cases found

theorem suffix_of_mem_endings {text ending : List Char} (member : ending ∈ endings text) :
    ending <:+ text := by
  induction text with
  | nil =>
      rw [endings, List.mem_singleton] at member
      exact member ▸ List.suffix_refl []
  | cons character text inductionHypothesis =>
      rw [endings, List.mem_cons] at member
      rcases member with rfl | later
      · exact List.suffix_refl _
      · exact (inductionHypothesis later).trans (List.suffix_cons character text)

theorem suffix_of_find?_eq_some
    {tokens : List Token}
    {text rest : List Char}
    (found : find? tokens text = some rest) :
    rest <:+ text := by
  rw [find?, table_eq] at found
  obtain ⟨answer, member, answer_eq⟩ := List.exists_of_findSome?_eq_some found
  obtain ⟨ending, isEnding, rfl⟩ := List.mem_map.1 member
  exact (suffix_of_anchor?_eq_some answer_eq).trans (suffix_of_mem_endings isEnding)

/-- The offset of a pattern is a boundary of the text. -/
theorem isBoundary_of_anchorOffset?_eq_some
    {pattern : Pattern}
    {text : String}
    {offset : Nat}
    (found : pattern.anchorOffset? text = some offset) :
    Text.isBoundary offset text.toList = true := by
  obtain ⟨rest, isRest, rfl⟩ := Option.map_eq_some_iff.1 found
  obtain ⟨front, parts⟩ := suffix_of_find?_eq_some isRest
  refine Text.isBoundary_iff.2 ⟨front, rest, parts.symm, ?_⟩
  rw [← parts, Text.byteSize_append, Nat.add_sub_cancel]

/-- The offset of a pattern lies in the text. -/
theorem anchorOffset?_le
    {pattern : Pattern}
    {text : String}
    {offset : Nat}
    (found : pattern.anchorOffset? text = some offset) :
    offset ≤ Text.byteSize text.toList := by
  obtain ⟨rest, _, rfl⟩ := Option.map_eq_some_iff.1 found
  exact Nat.sub_le _ _

/-! ## Patterns that are found -/

/-- Every pattern has a text that it matches from the beginning. -/
theorem exists_isSome_anchor? (tokens : List Token) :
    ∃ text, (anchor? tokens text).isSome = true := by
  induction tokens with
  | nil => exact ⟨[], by simp [anchor?]⟩
  | cons token tokens inductionHypothesis =>
      obtain ⟨text, isMatch⟩ := inductionHypothesis
      cases token with
      | anchor => exact ⟨text, by simpa [anchor?] using isMatch⟩
      | any => exact ⟨' ' :: text, by simp [anchor?, isMatch]⟩
      | lineEnd => exact ⟨'\n' :: text, by simp [anchor?, isMatch]⟩
      | blanks =>
          have blank : Text.isBlank ' ' = true := by decide
          exact ⟨' ' :: text, by simp [anchor?, isMatch, blank]⟩
      | literal expected => exact ⟨expected :: text, by simp [anchor?, isMatch]⟩

/-- A match from the beginning of the text is the first one. -/
theorem find?_eq_anchor?
    {tokens : List Token}
    {text : List Char}
    (isMatch : (anchor? tokens text).isSome = true) :
    find? tokens text = anchor? tokens text := by
  obtain ⟨rest, found⟩ := Option.isSome_iff_exists.1 isMatch
  rw [find?, table_eq]
  cases text <;> simp [endings, found]

/-- Any text up to the anchor is all of the text. -/
theorem anchor?_any_anchor (character : Char) (text : List Char) :
    anchor? [.any, .anchor] (character :: text) = some [] := by
  induction text generalizing character with
  | nil => simp [anchor?]
  | cons next text inductionHypothesis =>
      rw [anchor?, inductionHypothesis]
      rfl

end Prose
end Conformance
