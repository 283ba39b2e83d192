import Conformance.Proofs.Text.Search

/-!
# Occurrences in text that is put together

An occurrence of a word in text that is put together from parts lies inside a part or crosses a
seam.  It crosses no seam at a character that the word does not hold, and it does not begin in a
part without the first character of the word.
-/

namespace Conformance
namespace Text

variable {first character : Char} {word needle text front back : List Char}

/-- A word begins in front of a character that it does not hold only if it ends there, too. -/
theorem prefix_of_prefix_append_cons
    (absent : character ∉ word)
    (begins : word <+: front ++ character :: back) :
    word <+: front := by
  induction word generalizing front with
  | nil => exact List.nil_prefix
  | cons first word inductionHypothesis =>
      rw [List.mem_cons, not_or] at absent
      cases front with
      | nil => exact absurd (List.cons_prefix_cons.1 begins).1.symm absent.1
      | cons other front =>
          obtain ⟨rfl, further⟩ := List.cons_prefix_cons.1 begins
          exact List.cons_prefix_cons.2 ⟨rfl, inductionHypothesis absent.2 further⟩

/-- A word that does not hold the character occurs in front of it or behind it. -/
theorem infix_append_cons_iff (absent : character ∉ word) :
    word <:+: front ++ character :: back ↔ word <:+: front ∨ word <:+: back := by
  constructor
  · intro occurs
    induction front with
    | nil =>
        rcases List.infix_cons_iff.1 occurs with begins | later
        · exact .inl (prefix_of_prefix_append_cons absent begins).isInfix
        · exact .inr later
    | cons other front inductionHypothesis =>
        rcases List.infix_cons_iff.1 occurs with begins | later
        · exact .inl (prefix_of_prefix_append_cons absent begins).isInfix
        · exact (inductionHypothesis later).imp_left fun inFront =>
            List.infix_cons_iff.2 (.inr inFront)
  · rintro (inFront | behind)
    · exact inFront.trans (List.prefix_append front _).isInfix
    · have inside := (List.suffix_cons character back).trans (List.suffix_append front _)
      exact behind.trans inside.isInfix

/-- A word does not begin with a character other than its first one. -/
theorem infix_cons_iff_of_ne (different : character ≠ first) :
    first :: word <:+: character :: back ↔ first :: word <:+: back := by
  rw [List.infix_cons_iff, or_iff_right]
  intro begins
  exact different (List.cons_prefix_cons.1 begins).1.symm

/-- A word does not begin in a part without its first character. -/
theorem infix_append_iff_of_not_mem (absent : first ∉ front) :
    first :: word <:+: front ++ back ↔ first :: word <:+: back := by
  induction front with
  | nil => rfl
  | cons character front inductionHypothesis =>
      rw [List.mem_cons, not_or] at absent
      rw [List.cons_append, infix_cons_iff_of_ne (Ne.symm absent.1), inductionHypothesis absent.2]

theorem occursIn_eq_true_iff : occursIn needle text = true ↔ needle <:+: text := by
  induction text with
  | nil =>
      rw [occursIn, splitFirst?, Option.isSome_map, Option.isSome_iff_ne_none, Ne,
        after?_eq_none_iff, Classical.not_not, List.prefix_nil, List.infix_nil]
  | cons character text inductionHypothesis =>
      rw [List.infix_cons_iff, ← inductionHypothesis, occursIn, occursIn, splitFirst?]
      cases begins : after? needle (character :: text) with
      | none => simp [after?_eq_none_iff.1 begins]
      | some rest => simp [after?_eq_some_iff.1 begins]

/-- The pieces between the occurrences of a needle stand in the text. -/
theorem infix_of_mem_pieces {piece : List Char} (member : piece ∈ pieces (first :: needle) text) :
    piece <:+: text := by
  rw [pieces] at member
  fun_induction piecesBetween first needle text with
  | case1 text absent => exact List.mem_singleton.1 member ▸ List.infix_rfl
  | case2 text before rest found inductionHypothesis =>
      rw [eq_of_splitFirst?_eq_some found]
      rcases List.mem_cons.1 member with rfl | later
      · exact ⟨[], _, by rw [List.nil_append, List.append_assoc]⟩
      · exact (inductionHypothesis later).trans (List.suffix_append _ rest).isInfix

/-- A word that begins and ends with a character which does not stand between two parts occurs in
one of the parts, or around all that stands between them. -/
theorem infix_around_iff
    {inner : List Char}
    (absent : character ∉ inner) :
    character :: (word ++ [character]) <:+: front ++ (inner ++ back) ↔
      character :: (word ++ [character]) <:+: front ∨
        character :: (word ++ [character]) <:+: back ∨
        ∃ left right, character :: (word ++ [character]) = left ++ (inner ++ right) ∧
          left <:+ front ∧ right <+: back := by
  constructor
  · intro occurs
    rcases List.infix_append_iff_ne_nil.1 occurs with
      inFront | behind | ⟨left, others, -, nonempty, parts, ends, begins⟩
    · exact .inl inFront
    · exact .inr (.inl ((infix_append_iff_of_not_mem absent).1 behind))
    · refine .inr (.inr ?_)
      have lastOfOthers : character ∈ others := by
        have sameLast := congrArg List.getLast? parts
        rw [List.getLast?_append, List.getLast?_eq_some_getLast nonempty, ← List.cons_append,
          List.getLast?_concat, Option.some_or, Option.some.injEq] at sameLast
        exact sameLast ▸ List.getLast_mem nonempty
      rcases List.prefix_or_prefix_of_prefix begins (List.prefix_append inner back) with
        inside | ⟨right, rfl⟩
      · exact absurd (inside.subset lastOfOthers) absent
      · exact ⟨left, right, parts, ends, (List.prefix_append_right_inj inner).1 begins⟩
  · rintro (inFront | behind | ⟨left, right, parts, ⟨before, rfl⟩, ⟨after, rfl⟩⟩)
    · exact List.infix_append_of_infix_left inFront
    · exact List.infix_append_of_infix_right (List.infix_append_of_infix_right behind)
    · exact ⟨before, after, by rw [parts]; simp⟩

/-! ## The last occurrence -/

/-- The needle stands between two parts of the text, and does not occur later. -/
structure IsLastOccurrence (needle text before rest : List Char) : Prop where
  parts : text = before ++ needle ++ rest
  last : ∀ {front back}, text = front ++ needle ++ back → front.length ≤ before.length

theorem IsLastOccurrence.eq
    {text before rest other after : List Char}
    (found : IsLastOccurrence needle text before rest)
    (foundOther : IsLastOccurrence needle text other after) :
    before = other ∧ rest = after := by
  have same := found.parts.symm.trans foundOther.parts
  have sameLength := Nat.le_antisymm (foundOther.last found.parts) (found.last foundOther.parts)
  obtain ⟨fronts, rfl⟩ := List.append_inj same (by simp [sameLength])
  exact ⟨(List.append_inj fronts sameLength).1, rfl⟩

/-- A character occurs last where it does not occur in the rest. -/
theorem isLastOccurrence_of_not_mem
    {before rest : List Char}
    (absent : character ∉ rest) :
    IsLastOccurrence [character] (before ++ character :: rest) before rest := by
  refine ⟨by simp, fun {front back} parts => Nat.le_of_not_lt fun longer => ?_⟩
  rw [List.append_assoc, List.singleton_append] at parts
  obtain ⟨between, rfl, others⟩ | ⟨between, rfl, -⟩ := List.append_eq_append_iff.1 parts
  · cases between with
    | nil => simp at longer
    | cons first between =>
        rw [List.cons_append, List.cons.injEq] at others
        exact absent (others.2 ▸ by simp)
  · simp only [List.length_append] at longer
    omega

/-- Behind its last occurrence a character does not occur. -/
theorem IsLastOccurrence.not_mem
    {text before rest : List Char}
    (isLast : IsLastOccurrence [character] text before rest) :
    character ∉ rest := by
  intro member
  obtain ⟨between, back, rfl⟩ := List.append_of_mem member
  have later : text = (before ++ character :: between) ++ [character] ++ back := by
    rw [isLast.parts]
    simp
  have notLonger := isLast.last later
  simp only [List.length_append, List.length_cons] at notLonger
  omega

theorem splitLast?_eq_none_iff {text : List Char} :
    splitLast? needle text = none ↔ ¬ needle <:+: text := by
  induction text with
  | nil => rw [splitLast?, Option.map_eq_none_iff, after?_eq_none_iff, List.prefix_nil,
      List.infix_nil]
  | cons character text inductionHypothesis =>
      rw [splitLast?, List.infix_cons_iff, not_or, ← inductionHypothesis, ← after?_eq_none_iff]
      cases splitLast? needle text <;> simp

/-- A text is split around the last occurrence of the needle. -/
theorem isLastOccurrence_of_splitLast?_eq_some
    {text before rest : List Char}
    (found : splitLast? needle text = some (before, rest)) :
    IsLastOccurrence needle text before rest := by
  refine ⟨eq_of_splitLast?_eq_some found, ?_⟩
  induction text generalizing before with
  | nil =>
      intro front back parts
      have nothing := congrArg List.length parts
      simp only [List.length_nil, List.length_append] at nothing
      omega
  | cons character text inductionHypothesis =>
      intro front back parts
      rw [splitLast?] at found
      cases later : splitLast? needle text with
      | some items =>
          obtain ⟨inner, after⟩ := items
          rw [later] at found
          obtain ⟨rfl, rfl⟩ := Prod.mk.inj (Option.some.inj found)
          cases front with
          | nil => exact Nat.zero_le _
          | cons first front =>
              rw [List.cons_append, List.cons_append, List.cons.injEq] at parts
              exact Nat.succ_le_succ (inductionHypothesis later parts.2)
      | none =>
          -- nothing occurs behind the first character, so every occurrence begins the text
          cases front with
          | nil => exact Nat.zero_le _
          | cons first front =>
              rw [List.cons_append, List.cons_append, List.cons.injEq] at parts
              exact absurd ⟨front, back, parts.2.symm⟩ (splitLast?_eq_none_iff.1 later)

/-- A text is split exactly around the last occurrence of the needle. -/
theorem splitLast?_eq_some_iff
    {before rest : List Char} :
    splitLast? needle text = some (before, rest) ↔ IsLastOccurrence needle text before rest := by
  refine ⟨isLastOccurrence_of_splitLast?_eq_some, fun isLast => ?_⟩
  cases found : splitLast? needle text with
  | none => exact absurd ⟨before, rest, isLast.parts.symm⟩ (splitLast?_eq_none_iff.1 found)
  | some parts =>
      obtain ⟨first, second⟩ := parts
      obtain ⟨rfl, rfl⟩ := isLast.eq (isLastOccurrence_of_splitLast?_eq_some found)
      rfl

/-! ## Replacing other text -/

/-- Text in which the needle does not occur is left as it is. -/
theorem replace_of_not_infix
    (absent : ¬ needle <:+: text)
    (replacement : List Char) :
    replace needle replacement text = text := by
  cases needle with
  | nil => exact absurd List.nil_infix absent
  | cons first needle =>
      induction text with
      | nil => exact replace_nil
      | cons character text inductionHypothesis =>
          rw [List.infix_cons_iff, not_or] at absent
          rw [replace_of_after?_eq_none (after?_eq_none_iff.2 absent.1),
            inductionHypothesis absent.2]

theorem mem_replace_cons_iff
    (notNeedle : character ∉ first :: needle)
    (replacement text : List Char) :
    character ∈ replace (first :: needle) replacement text ↔
      character ∈ text ∨ (first :: needle <:+: text ∧ character ∈ replacement) := by
  match text with
  | [] => simp [replace_nil]
  | other :: text =>
      cases found : after? (first :: needle) (other :: text) with
      | none =>
          rw [replace_of_after?_eq_none found, List.mem_cons, List.mem_cons,
            mem_replace_cons_iff notNeedle replacement text, List.infix_cons_iff,
            or_iff_right (after?_eq_none_iff.1 found), or_assoc]
      | some rest =>
          have parts := after?_eq_some_iff.1 found
          have shorter := congrArg List.length parts
          have occurs : first :: needle <:+: first :: needle ++ rest :=
            (List.prefix_append _ rest).isInfix
          rw [replace_of_after?_eq_some found, parts, List.mem_append, List.mem_append,
            or_iff_right notNeedle, and_iff_right occurs,
            mem_replace_cons_iff notNeedle replacement rest]
          grind
termination_by text.length
decreasing_by
  · simp
  · simp only [List.length_append, List.length_cons] at shorter ⊢
    omega

/-- Replacing keeps every character that the needle does not hold, and adds those of the
replacement where the needle occurs. -/
theorem mem_replace_iff
    (notNeedle : character ∉ needle)
    (replacement text : List Char) :
    character ∈ replace needle replacement text ↔
      character ∈ text ∨ (needle <:+: text ∧ character ∈ replacement) := by
  cases needle with
  | nil =>
      simp only [replace_empty_needle, List.mem_append, List.mem_flatMap, List.mem_cons,
        List.nil_infix, true_and]
      grind
  | cons first needle => exact mem_replace_cons_iff notNeedle replacement text

/-! ## Counting -/

/-- A needle that does not occur is counted nowhere. -/
theorem occurrences_eq_zero_iff :
    occurrences (first :: needle) text = 0 ↔ ¬ first :: needle <:+: text := by
  induction text with
  | nil => simp [occurrences_nil]
  | cons character text inductionHypothesis =>
      rw [List.infix_cons_iff, not_or, ← after?_eq_none_iff]
      cases found : after? (first :: needle) (character :: text) with
      | none => simp [occurrences_of_after?_eq_none found, inductionHypothesis]
      | some rest => simp [occurrences_of_after?_eq_some found]

/-- A needle that is counted once is replaced between two parts in which it does not occur. -/
theorem exists_parts_of_occurrences_eq_one
    (once : occurrences (first :: needle) text = 1)
    (replacement : List Char) :
    ∃ front back, text = front ++ ((first :: needle) ++ back) ∧
      replace (first :: needle) replacement text = front ++ (replacement ++ back) ∧
      ¬ first :: needle <:+: front ∧ ¬ first :: needle <:+: back := by
  induction text with
  | nil => simp [occurrences_nil] at once
  | cons character text inductionHypothesis =>
      cases found : after? (first :: needle) (character :: text) with
      | some rest =>
          rw [occurrences_of_after?_eq_some found, Nat.succ_inj, occurrences_eq_zero_iff] at once
          refine ⟨[], rest, ?_, ?_, by simp, once⟩
          · rw [List.nil_append]
            exact after?_eq_some_iff.1 found
          · rw [replace_of_after?_eq_some found, replace_of_not_infix once, List.nil_append]
      | none =>
          rw [occurrences_of_after?_eq_none found] at once
          obtain ⟨front, back, rfl, replaced, notInFront, notBehind⟩ := inductionHypothesis once
          refine ⟨character :: front, back, rfl, ?_, ?_, notBehind⟩
          · rw [replace_of_after?_eq_none found, replaced, List.cons_append]
          · rw [List.infix_cons_iff, not_or]
            refine ⟨fun begins => after?_eq_none_iff.1 found ?_, notInFront⟩
            exact begins.trans (List.prefix_append _ _)

end Text
end Conformance
