import Conformance.Text.Blank
import Conformance.Text.ByteSize

/-!
# Boundaries of characters and words

A byte position is a boundary of a text exactly if the text has a beginning of that size.  A
boundary of a text that falls into a part of it is a boundary of the part.  A text that begins with
a token and a blank has the token among its words.
-/

namespace Conformance
namespace Text

/-- Only the empty text takes no bytes. -/
@[simp]
theorem byteSize_eq_zero_iff (characters : List Char) :
    byteSize characters = 0 ↔ characters = [] := by
  cases characters with
  | nil => simp
  | cons character rest =>
      have positive := character.utf8Size_pos
      simp only [byteSize_cons, reduceCtorEq, iff_false]
      omega

/-- A cut at the size of a beginning gives that beginning. -/
theorem cutAt_byteSize_append (front back : List Char) :
    cutAt (byteSize front) (front ++ back) = (front, back) := by
  induction front with
  | nil =>
      cases back with
      | nil => rfl
      | cons character rest =>
          have positive := character.utf8Size_pos
          rw [byteSize_nil, List.nil_append, cutAt, if_neg (by omega)]
  | cons character front inductionHypothesis =>
      rw [List.cons_append, cutAt, byteSize_cons, if_pos (Nat.le_add_right _ _),
        Nat.add_sub_cancel_left, inductionHypothesis]

theorem isBoundary_iff {position : Nat} {characters : List Char} :
    isBoundary position characters = true ↔
      ∃ front back, characters = front ++ back ∧ byteSize front = position := by
  constructor
  · intro boundary
    exact ⟨_, _, (cutAt_fst_append_snd position characters).symm,
      by simpa [isBoundary] using boundary⟩
  · rintro ⟨front, back, rfl, rfl⟩
    simp [isBoundary, cutAt_byteSize_append]

theorem byteSize_cutAt_fst_le (position : Nat) (characters : List Char) :
    byteSize (cutAt position characters).1 ≤ position := by
  induction characters generalizing position with
  | nil => exact Nat.zero_le _
  | cons character rest inductionHypothesis =>
      rw [cutAt]
      split
      · have later := inductionHypothesis (position - character.utf8Size)
        rw [byteSize_cons]
        omega
      · exact Nat.zero_le _

/-- A cut that falls into a part of the text is a cut of the part. -/
theorem cutAt_middle
    {middle : List Char}
    {position : Nat}
    (inside : position ≤ byteSize middle)
    (front back : List Char) :
    cutAt (byteSize front + position) (front ++ middle ++ back) =
      (front ++ (cutAt position middle).1, (cutAt position middle).2 ++ back) := by
  induction front with
  | cons character front inductionHypothesis =>
      rw [byteSize_cons, List.cons_append, List.cons_append, cutAt, if_pos (by omega),
        Nat.add_assoc, Nat.add_sub_cancel_left, inductionHypothesis]
      rfl
  | nil =>
      rw [byteSize_nil, Nat.zero_add, List.nil_append, List.nil_append]
      induction middle generalizing position with
      | nil =>
          obtain rfl : position = 0 := Nat.le_zero.1 inside
          simpa [cutAt] using cutAt_byteSize_append [] back
      | cons character middle inductionHypothesis =>
          rw [List.cons_append, cutAt, cutAt]
          split
          · rw [byteSize_cons] at inside
            rw [inductionHypothesis (by omega)]
          · rfl

/-- A boundary that falls into a part of the text is a boundary of the part. -/
theorem isBoundary_middle
    {middle : List Char}
    {position : Nat}
    (inside : position ≤ byteSize middle)
    (front back : List Char) :
    isBoundary (byteSize front + position) (front ++ middle ++ back) =
      isBoundary position middle := by
  rw [isBoundary, isBoundary, cutAt_middle inside, byteSize_append, Bool.eq_iff_iff, beq_iff_eq,
    beq_iff_eq, Nat.add_left_cancel_iff]

/-- A text with more text put in at a byte position. -/
def insertText (position : Nat) (inserted text : List Char) : List Char :=
  (cutAt position text).1 ++ inserted ++ (cutAt position text).2

theorem insertText_nil (position : Nat) (text : List Char) :
    insertText position [] text = text := by
  rw [insertText, List.append_nil, cutAt_fst_append_snd]

theorem byteSize_insertText (position : Nat) (inserted text : List Char) :
    byteSize (insertText position inserted text) = byteSize text + byteSize inserted := by
  have parts := congrArg byteSize (cutAt_fst_append_snd position text)
  simp only [insertText, byteSize_append] at parts ⊢
  omega

/-- A single word: not empty, and without blanks. -/
def IsToken (text : String) : Prop :=
  text ≠ "" ∧ ∀ character ∈ text.toList, isBlank character = false

theorem isToken_iff {text : String} :
    (text ≠ "" ∧ text.toList.all (fun character => !isBlank character) = true) ↔
      IsToken text := by
  simp [IsToken]

instance (text : String) : Decidable (IsToken text) :=
  decidable_of_decidable_of_iff isToken_iff

/-- A word at the beginning, with a blank behind it, is one of the words. -/
theorem mem_words_of_isToken
    {token : String}
    (isToken : IsToken token)
    {blank : Char}
    (isBlank_blank : isBlank blank = true)
    (rest : List Char) :
    token.toList ∈ words (token.toList ++ blank :: rest) := by
  obtain ⟨nonempty, noBlank⟩ := isToken
  rw [words, List.splitOnP_append_cons_of_forall_mem noBlank _ isBlank_blank, List.mem_filter]
  refine ⟨List.mem_cons_self, ?_⟩
  simpa using nonempty

/-- No piece of a text holds a separator. -/
theorem forall_mem_of_mem_splitOnP
    {separates : Char → Bool}
    {text piece : List Char}
    (member : piece ∈ text.splitOnP separates) :
    ∀ character ∈ piece, separates character = false := by
  induction text generalizing piece with
  | nil =>
      rw [List.splitOnP_nil, List.mem_singleton] at member
      simp [member]
  | cons character text inductionHypothesis =>
      rw [List.splitOnP_cons_eq_if_modifyHead] at member
      split at member
      · rcases List.mem_cons.1 member with rfl | later
        · simp
        · exact inductionHypothesis later
      · next isNone =>
          obtain ⟨first, others, pieces_eq⟩ :=
            List.exists_cons_of_ne_nil (List.splitOnP_ne_nil separates text)
          rw [pieces_eq, List.modifyHead_cons] at member
          rcases List.mem_cons.1 member with rfl | later
          · refine List.forall_mem_cons.2 ⟨by simpa using isNone, ?_⟩
            exact inductionHypothesis (pieces_eq ▸ List.mem_cons_self)
          · exact inductionHypothesis (pieces_eq ▸ List.mem_cons_of_mem first later)

/-- The words of a text are single words. -/
theorem isToken_of_mem_words
    {token : String}
    {text : List Char}
    (member : token.toList ∈ words text) :
    IsToken token := by
  obtain ⟨isPiece, nonempty⟩ := List.mem_filter.1 member
  exact ⟨by simpa using nonempty, forall_mem_of_mem_splitOnP isPiece⟩

end Text
end Conformance
