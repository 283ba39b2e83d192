import Conformance.Proofs.Prose.Compilation
import Conformance.Proofs.Text.Occurrence

/-!
# Markers that are left

A marker is replaced by its keyword, and what is left of the text is not looked through again.  The
asterisks of the marker are gone then, but with further asterisks around it the same word stands
between asterisks once more.  The main statement is that a pattern has a marker left in its prose
exactly in this case, and that the asterisks are looked for like other characters then.
-/

namespace Conformance
namespace Prose

open scoped Text

/-- A marker between two further asterisks. -/
def wrappedMarker (keyword : Keyword) : List Char :=
  "*" ++ marker keyword ++ "*"

theorem marker_eq (keyword : Keyword) :
    marker keyword = '*' :: (keyword.text.toList ++ ['*']) := by
  simp [marker, Text.chars_eq_toList]

theorem wrappedMarker_eq (keyword : Keyword) :
    wrappedMarker keyword = '*' :: (marker keyword ++ ['*']) := by
  simp [wrappedMarker, Text.chars_eq_toList]

theorem asterisk_not_mem_text (keyword : Keyword) : '*' ∉ keyword.text.toList := by
  cases keyword <;> decide

theorem toList_text_ne_nil (keyword : Keyword) : keyword.text.toList ≠ [] := by
  cases keyword <;> decide

/-- No keyword is written inside another one. -/
theorem eq_of_text_infix
    {keyword other : Keyword}
    (inside : other.text.toList <:+: keyword.text.toList) :
    keyword = other := by
  rw [← Text.occursIn_eq_true_iff] at inside
  revert inside
  cases keyword <;> cases other <;> decide +kernel

/-! ## A keyword inside a marker -/

/-- What stands around a word inside of a text between two characters that the word does not hold
begins and ends with these characters. -/
theorem exists_inside
    {character : Char}
    {word text left right : List Char}
    (absent : character ∉ word)
    (nonempty : word ≠ [])
    (equal : character :: (text ++ [character]) = left ++ (word ++ right)) :
    ∃ before after, left = character :: before ∧ right = after ++ [character] ∧
      text = before ++ (word ++ after) := by
  obtain ⟨first, others, rfl⟩ := List.exists_cons_of_ne_nil nonempty
  cases left with
  | nil =>
      rw [List.nil_append, List.cons_append, List.cons.injEq] at equal
      exact absurd (equal.1 ▸ List.mem_cons_self) absent
  | cons opening before =>
      rw [List.cons_append, List.cons.injEq] at equal
      obtain ⟨rfl, equal⟩ := equal
      rcases List.eq_nil_or_concat right with rfl | ⟨after, closing, rfl⟩
      · have sameLast := congrArg List.getLast? equal
        rw [List.append_nil, List.getLast?_concat, List.getLast?_append,
          List.getLast?_eq_some_getLast nonempty, Option.some_or, Option.some.injEq] at sameLast
        exact absurd (sameLast ▸ List.getLast_mem nonempty) absent
      · rw [List.concat_eq_append, ← List.append_assoc, ← List.append_assoc] at equal
        obtain ⟨rfl, isClosing⟩ := List.append_inj' equal rfl
        rw [List.cons.injEq] at isClosing
        exact ⟨before, after, rfl, by rw [List.concat_eq_append, isClosing.1], by simp⟩

/-- Around a keyword inside of a marker stand the asterisks of the marker. -/
theorem eq_of_marker_eq
    {keyword other : Keyword}
    {left right : List Char}
    (equal : marker keyword = left ++ (other.text.toList ++ right)) :
    keyword = other ∧ left = ['*'] ∧ right = ['*'] := by
  rw [marker_eq] at equal
  obtain ⟨before, after, rfl, rfl, text_eq⟩ :=
    exists_inside (asterisk_not_mem_text other) (toList_text_ne_nil other) equal
  obtain rfl : keyword = other := eq_of_text_infix ⟨before, after, by rw [text_eq]; simp⟩
  have lengths := congrArg List.length text_eq
  simp only [List.length_append] at lengths
  obtain rfl : before = [] := List.length_eq_zero_iff.1 (by omega)
  obtain rfl : after = [] := List.length_eq_zero_iff.1 (by omega)
  exact ⟨rfl, rfl, rfl⟩

/-- Around a keyword inside of a wrapped marker stand all its asterisks. -/
theorem eq_of_wrappedMarker_eq
    {keyword other : Keyword}
    {left right : List Char}
    (equal : wrappedMarker keyword = left ++ (other.text.toList ++ right)) :
    keyword = other ∧ left = ['*', '*'] ∧ right = ['*', '*'] := by
  rw [wrappedMarker_eq] at equal
  obtain ⟨before, after, rfl, rfl, marker_eq⟩ :=
    exists_inside (asterisk_not_mem_text other) (toList_text_ne_nil other) equal
  obtain ⟨same, rfl, rfl⟩ := eq_of_marker_eq marker_eq
  exact ⟨same, rfl, rfl⟩

theorem marker_infix_wrappedMarker (keyword : Keyword) :
    marker keyword <:+: wrappedMarker keyword :=
  ⟨['*'], ['*'], by simp [wrappedMarker_eq]⟩

/-- Between parts without markers a keyword becomes a marker if it has asterisks on both sides. -/
theorem marker_infix_append_iff
    {keyword other : Keyword}
    {front back : List Char}
    (notInFront : ¬ marker keyword <:+: front)
    (notBehind : ¬ marker keyword <:+: back) :
    marker keyword <:+: front ++ (other.text.toList ++ back) ↔
      keyword = other ∧ ['*'] <:+ front ∧ ['*'] <+: back := by
  rw [marker_eq] at notInFront notBehind ⊢
  rw [Text.infix_around_iff (asterisk_not_mem_text other), or_iff_right notInFront,
    or_iff_right notBehind, ← marker_eq]
  constructor
  · rintro ⟨left, right, equal, ends, begins⟩
    obtain ⟨same, rfl, rfl⟩ := eq_of_marker_eq equal
    exact ⟨same, ends, begins⟩
  · rintro ⟨rfl, ends, begins⟩
    exact ⟨_, _, marker_eq keyword, ends, begins⟩

/-- Between parts without markers a marker is wrapped if it has asterisks on both sides. -/
theorem wrappedMarker_infix_append_iff
    {keyword other : Keyword}
    {front back : List Char}
    (notInFront : ¬ marker keyword <:+: front)
    (notBehind : ¬ marker keyword <:+: back) :
    wrappedMarker keyword <:+: front ++ (marker other ++ back) ↔
      keyword = other ∧ ['*'] <:+ front ∧ ['*'] <+: back := by
  have text_eq : front ++ (marker other ++ back) =
      (front ++ ['*']) ++ (other.text.toList ++ ('*' :: back)) := by
    simp [marker_eq]
  have frontWrapped : ¬ wrappedMarker keyword <:+: front ++ ['*'] := by
    rw [wrappedMarker_eq, ← List.cons_append, List.infix_concat_iff, List.suffix_concat_iff]
    rintro ((nothing | ⟨wrapped, equal, ends⟩) | inFront)
    · simp at nothing
    · obtain ⟨rfl, -⟩ := List.append_inj' equal rfl
      exact notInFront ((List.suffix_cons _ _).trans ends).isInfix
    · exact notInFront (((List.suffix_cons _ _).isInfix.trans List.infix_append_left).trans inFront)
  have behindWrapped : ¬ wrappedMarker keyword <:+: '*' :: back := by
    rw [wrappedMarker_eq, List.infix_cons_iff, List.cons_prefix_cons]
    rintro (⟨-, begins⟩ | behind)
    · exact notBehind ((List.prefix_append _ _).trans begins).isInfix
    · exact notBehind ((List.infix_append_left.trans (List.suffix_cons _ _).isInfix).trans behind)
  rw [wrappedMarker_eq] at frontWrapped behindWrapped ⊢
  rw [text_eq, Text.infix_around_iff (asterisk_not_mem_text other), or_iff_right frontWrapped,
    or_iff_right behindWrapped, ← wrappedMarker_eq]
  constructor
  · rintro ⟨left, right, equal, ends, begins⟩
    obtain ⟨same, rfl, rfl⟩ := eq_of_wrappedMarker_eq equal
    have inFront : ['*'] <:+ front := by
      obtain ⟨before, parts⟩ := ends
      exact ⟨before, (List.append_inj' (by simpa using parts) rfl).1⟩
    exact ⟨same, inFront, (List.cons_prefix_cons.1 begins).2⟩
  · rintro ⟨rfl, ⟨before, rfl⟩, ⟨after, rfl⟩⟩
    exact ⟨['*', '*'], ['*', '*'], by simp [wrappedMarker_eq, marker_eq], ⟨before, by simp⟩,
      ⟨after, by simp⟩⟩

/-! ## Taking markers away -/

theorem occurrences_marker_eq_zero_iff {keyword : Keyword} {text : List Char} :
    Text.occurrences (marker keyword) text = 0 ↔ ¬ marker keyword <:+: text := by
  rw [marker_eq]
  exact Text.occurrences_eq_zero_iff

theorem length_keywords_unmark (unmarked : Unmarked) (keyword : Keyword) :
    (unmarked.unmark keyword).keywords.length =
      unmarked.keywords.length + Text.occurrences (marker keyword) unmarked.prose := by
  simp [Unmarked.unmark]

theorem length_keywords_le_foldl (keywords : List Keyword) (unmarked : Unmarked) :
    unmarked.keywords.length ≤ (keywords.foldl Unmarked.unmark unmarked).keywords.length := by
  induction keywords generalizing unmarked with
  | nil => exact Nat.le_refl _
  | cons keyword keywords inductionHypothesis =>
      have further := inductionHypothesis (unmarked.unmark keyword)
      rw [length_keywords_unmark] at further
      exact Nat.le_trans (Nat.le_add_right _ _) further

theorem prose_unmark_of_absent
    {unmarked : Unmarked}
    {keyword : Keyword}
    (absent : ¬ marker keyword <:+: unmarked.prose) :
    (unmarked.unmark keyword).prose = unmarked.prose :=
  Text.replace_of_not_infix absent _

/-- Where no marker is counted, none stands, and nothing is changed. -/
theorem prose_foldl_unmark_of_length_le
    (keywords : List Keyword)
    (unmarked : Unmarked)
    (noneCounted :
      (keywords.foldl Unmarked.unmark unmarked).keywords.length ≤ unmarked.keywords.length) :
    (keywords.foldl Unmarked.unmark unmarked).prose = unmarked.prose ∧
      ∀ keyword ∈ keywords, ¬ marker keyword <:+: unmarked.prose := by
  induction keywords generalizing unmarked with
  | nil => exact ⟨rfl, by simp⟩
  | cons keyword keywords inductionHypothesis =>
      rw [List.foldl_cons] at noneCounted ⊢
      have counted := length_keywords_unmark unmarked keyword
      have further := length_keywords_le_foldl keywords (unmarked.unmark keyword)
      have absent := occurrences_marker_eq_zero_iff.1
        (show Text.occurrences (marker keyword) unmarked.prose = 0 by omega)
      obtain ⟨unchanged, absentLater⟩ := inductionHypothesis (unmarked.unmark keyword) (by omega)
      rw [prose_unmark_of_absent absent] at unchanged absentLater
      exact ⟨unchanged, List.forall_mem_cons.2 ⟨absent, absentLater⟩⟩

/-- What stands nowhere in a text stands neither in front of nor behind a part of it. -/
theorem absent_around
    {word front middle back : List Char}
    (absent : ¬ word <:+: front ++ (middle ++ back)) :
    ¬ word <:+: front ∧ ¬ word <:+: back :=
  ⟨fun inFront => absent (List.infix_append_of_infix_left inFront),
    fun behind =>
      absent (List.infix_append_of_infix_right (List.infix_append_of_infix_right behind))⟩

/-- Where at most one marker is counted, either none stands, or one does and its keyword comes in
its place, between parts without markers. -/
theorem foldl_unmark_cases
    (keywords : List Keyword)
    (unmarked : Unmarked)
    (single :
      (keywords.foldl Unmarked.unmark unmarked).keywords.length ≤
        unmarked.keywords.length + 1) :
    ((keywords.foldl Unmarked.unmark unmarked).prose = unmarked.prose ∧
        ∀ keyword ∈ keywords, ¬ marker keyword <:+: unmarked.prose) ∨
      ∃ taken front back,
        unmarked.prose = front ++ (marker taken ++ back) ∧
        (keywords.foldl Unmarked.unmark unmarked).prose = front ++ (taken.text.toList ++ back) ∧
        ∀ keyword ∈ keywords, ¬ marker keyword <:+: front ∧ ¬ marker keyword <:+: back := by
  induction keywords generalizing unmarked with
  | nil => exact .inl ⟨rfl, by simp⟩
  | cons keyword keywords inductionHypothesis =>
      rw [List.foldl_cons] at single ⊢
      have counted := length_keywords_unmark unmarked keyword
      have further := length_keywords_le_foldl keywords (unmarked.unmark keyword)
      -- The marker that is counted is one of a later keyword, or it is of this one and the later
      -- ones find none, neither in the parts around it nor across them.
      obtain zero | one : Text.occurrences (marker keyword) unmarked.prose = 0 ∨
          Text.occurrences (marker keyword) unmarked.prose = 1 := by omega
      · have absent := occurrences_marker_eq_zero_iff.1 zero
        have later := inductionHypothesis (unmarked.unmark keyword) (by omega)
        rw [prose_unmark_of_absent absent] at later
        rcases later with ⟨unchanged, absentLater⟩ | ⟨taken, front, back, text_eq, prose_eq, apart⟩
        · exact .inl ⟨unchanged, List.forall_mem_cons.2 ⟨absent, absentLater⟩⟩
        · exact .inr ⟨taken, front, back, text_eq, prose_eq,
            List.forall_mem_cons.2 ⟨absent_around (text_eq ▸ absent), apart⟩⟩
      · obtain ⟨unchanged, absentLater⟩ :=
          prose_foldl_unmark_of_length_le keywords (unmarked.unmark keyword) (by omega)
        rw [marker_eq] at one
        obtain ⟨front, back, text_eq, replaced, notInFront, notBehind⟩ :=
          Text.exists_parts_of_occurrences_eq_one one keyword.text.toList
        rw [← marker_eq] at text_eq replaced notInFront notBehind
        have prose_eq : (unmarked.unmark keyword).prose =
            front ++ (keyword.text.toList ++ back) := by
          rw [← replaced, Unmarked.unmark, Text.chars_eq_toList]
        rw [prose_eq] at unchanged absentLater
        exact .inr ⟨keyword, front, back, text_eq, unchanged,
          List.forall_mem_cons.2 ⟨⟨notInFront, notBehind⟩,
            fun other isLater => absent_around (absentLater other isLater)⟩⟩

/-- If at most one marker is counted, those are left in the prose that are wrapped in the text. -/
theorem marker_infix_unmark_iff
    {text : List Char}
    (single : (unmark text).keywords.length ≤ 1)
    {keyword : Keyword}
    (isMarked : keyword ∈ Keyword.marked) :
    marker keyword <:+: (unmark text).prose ↔ wrappedMarker keyword <:+: text := by
  rcases foldl_unmark_cases Keyword.marked { prose := text } single with
    ⟨unchanged, absent⟩ | ⟨taken, front, back, text_eq, prose_eq, apart⟩
  · have notMarked := absent keyword isMarked
    rw [unmark, unchanged]
    exact iff_of_false notMarked fun isWrapped =>
      notMarked ((marker_infix_wrappedMarker keyword).trans isWrapped)
  · obtain ⟨notInFront, notBehind⟩ := apart keyword isMarked
    rw [unmark, prose_eq, marker_infix_append_iff notInFront notBehind]
    obtain rfl : text = front ++ (marker taken ++ back) := text_eq
    rw [wrappedMarker_infix_append_iff notInFront notBehind]

/-! ## Words that are looked for literally -/

section

variable {prose word : List Char} {tokens : List Token} {parts : List (List Char)}

theorem not_mem_placeholders_literal {spelling : List Char} {character : Char} :
    (spelling, Token.literal character) ∉ placeholders := by
  simp [placeholders_eq]

/-- Literal tokens in front are read from the characters that the prose begins with. -/
theorem prefix_of_literals
    (reads : Reads prose tokens)
    (begins : word.map .literal <+: tokens) :
    word <+: prose := by
  induction word generalizing prose tokens with
  | nil => exact List.nil_prefix
  | cons character word inductionHypothesis =>
      rw [List.map_cons] at begins
      cases reads with
      | nil => simp at begins
      | placeholder isPlaceholder rest =>
          obtain ⟨rfl, -⟩ := List.cons_prefix_cons.1 begins
          exact absurd isPlaceholder not_mem_placeholders_literal
      | blanks nonempty allBlank ended rest => simp [List.cons_prefix_cons] at begins
      | literal notBlank noPlaceholder rest =>
          obtain ⟨same, further⟩ := List.cons_prefix_cons.1 begins
          obtain rfl := Token.literal.inj same
          exact List.cons_prefix_cons.2 ⟨rfl, inductionHypothesis rest further⟩

theorem infix_of_literals
    (reads : Reads prose tokens)
    (inside : word.map .literal <:+: tokens) :
    word <:+: prose := by
  induction reads with
  | nil => simpa using inside
  | placeholder isPlaceholder rest inductionHypothesis =>
      rcases List.infix_cons_iff.1 inside with begins | later
      · exact (prefix_of_literals (.placeholder isPlaceholder rest) begins).isInfix
      · exact List.infix_append_of_infix_right (inductionHypothesis later)
  | blanks nonempty allBlank ended rest inductionHypothesis =>
      rcases List.infix_cons_iff.1 inside with begins | later
      · exact (prefix_of_literals (.blanks nonempty allBlank ended rest) begins).isInfix
      · exact List.infix_append_of_infix_right (inductionHypothesis later)
  | literal notBlank noPlaceholder rest inductionHypothesis =>
      rcases List.infix_cons_iff.1 inside with begins | later
      · exact (prefix_of_literals (.literal notBlank noPlaceholder rest) begins).isInfix
      · exact List.infix_cons (inductionHypothesis later)

/-- A word without blanks in which no placeholder begins is read as it is written. -/
theorem literals_begin
    (notBlank : ∀ character ∈ word, Text.isBlank character = false)
    (noOpening : '<' ∉ word)
    (reads : Reads prose tokens)
    (begins : word <+: prose) :
    word.map .literal <+: tokens := by
  induction word generalizing prose tokens with
  | nil => exact List.nil_prefix
  | cons character word inductionHypothesis =>
      rw [List.forall_mem_cons] at notBlank
      rw [List.mem_cons, not_or] at noOpening
      cases reads with
      | nil => simp at begins
      | placeholder isPlaceholder rest =>
          simp only [placeholders_eq, List.mem_cons, Prod.mk.injEq, List.not_mem_nil,
            or_false] at isPlaceholder
          rcases isPlaceholder with ⟨rfl, -⟩ | ⟨rfl, -⟩ | ⟨rfl, -⟩ <;>
            exact absurd (List.cons_prefix_cons.1 begins).1.symm noOpening.1
      | blanks nonempty allBlank ended rest =>
          obtain ⟨first, others, rfl⟩ := List.exists_cons_of_ne_nil nonempty
          obtain ⟨rfl, -⟩ := List.cons_prefix_cons.1 begins
          exact absurd (allBlank _ List.mem_cons_self) (by simp [notBlank.1])
      | literal _ noPlaceholder rest =>
          obtain ⟨rfl, further⟩ := List.cons_prefix_cons.1 begins
          exact List.cons_prefix_cons.2
            ⟨rfl, inductionHypothesis notBlank.2 noOpening.2 rest further⟩

/-- A word without blanks in which no placeholder begins, and which begins in none, is read as it is
written wherever it stands. -/
theorem map_literal_infix_iff
    {first : Char}
    (notBlank : ∀ character ∈ first :: word, Text.isBlank character = false)
    (noOpening : '<' ∉ first :: word)
    (beginsInNone : ∀ spelled ∈ placeholders, first ∉ spelled.1)
    (reads : Reads prose tokens) :
    (first :: word).map .literal <:+: tokens ↔ first :: word <:+: prose := by
  refine ⟨infix_of_literals reads, fun inside => ?_⟩
  induction reads with
  | nil => simp at inside
  | placeholder isPlaceholder rest inductionHypothesis =>
      rw [Text.infix_append_iff_of_not_mem (beginsInNone _ isPlaceholder)] at inside
      exact List.infix_cons (inductionHypothesis inside)
  | blanks nonempty allBlank ended rest inductionHypothesis =>
      -- A run of blanks becomes one token, so nothing may begin in it.
      have notInRun : first ∉ _ := fun member =>
        absurd (allBlank first member) (by simp [notBlank first List.mem_cons_self])
      rw [Text.infix_append_iff_of_not_mem notInRun] at inside
      exact List.infix_cons (inductionHypothesis inside)
  | literal isOrdinary noPlaceholder rest inductionHypothesis =>
      rcases List.infix_cons_iff.1 inside with begins | later
      · exact (literals_begin notBlank noOpening
          (.literal isOrdinary noPlaceholder rest) begins).isInfix
      · exact List.infix_cons (inductionHypothesis later)

theorem prefix_flatten_of_takes
    (takes : List.Forall₂ Token.Takes tokens parts)
    (begins : word.map .literal <+: tokens) :
    word <+: parts.flatten := by
  induction word generalizing tokens parts with
  | nil => exact List.nil_prefix
  | cons character word inductionHypothesis =>
      cases takes with
      | nil => simp at begins
      | cons takesFirst takesOthers =>
          obtain ⟨rfl, further⟩ := List.cons_prefix_cons.1 begins
          obtain rfl := takesFirst
          exact List.cons_prefix_cons.2 ⟨rfl, inductionHypothesis takesOthers further⟩

/-- What is looked for literally stands in every match. -/
theorem infix_flatten_of_takes
    (takes : List.Forall₂ Token.Takes tokens parts)
    (inside : word.map .literal <:+: tokens) :
    word <:+: parts.flatten := by
  induction takes with
  | nil => simpa using inside
  | cons takesFirst takesOthers inductionHypothesis =>
      rcases List.infix_cons_iff.1 inside with begins | later
      · exact (prefix_flatten_of_takes (.cons takesFirst takesOthers) begins).isInfix
      · exact List.infix_append_of_infix_right (inductionHypothesis later)

end

theorem isBlank_of_mem_marker
    {keyword : Keyword}
    {character : Char}
    (member : character ∈ marker keyword) :
    Text.isBlank character = false := by
  have noneBlank : (marker keyword).any Text.isBlank = false := by cases keyword <;> decide +kernel
  simpa using List.any_eq_false.1 noneBlank character member

theorem opening_not_mem_marker (keyword : Keyword) : '<' ∉ marker keyword := by
  cases keyword <;> decide +kernel

/-- A marker that is left in prose is looked for as it is written. -/
theorem map_literal_marker_infix_iff
    {keyword : Keyword}
    {prose : List Char}
    {tokens : List Token}
    (reads : Reads prose tokens) :
    (marker keyword).map .literal <:+: tokens ↔ marker keyword <:+: prose := by
  have noneBlank : ∀ character ∈ marker keyword, Text.isBlank character = false :=
    fun _ => isBlank_of_mem_marker
  have noOpening := opening_not_mem_marker keyword
  rw [marker_eq] at noneBlank noOpening ⊢
  exact map_literal_infix_iff noneBlank noOpening (by simp [placeholders_eq]) reads

namespace Pattern

theorem isPattern_of_compile_eq_ok
    {id text : String}
    {given : Option Keyword}
    {pattern : Pattern}
    (compiled : compile id text given = .ok pattern) :
    IsPattern text.toList := by
  by_contra noPattern
  obtain ⟨message, failed⟩ := exists_compile_of_not_isPattern noPattern id
  exact nomatch compiled.symm.trans failed

/-- A marker is left in the prose of a pattern exactly if it stands between two further asterisks in
the text.  Exactly then its asterisks are looked for, and the pattern is found only in texts that
have them. -/
theorem compile_leaves_marker_iff
    {id text : String}
    {given : Option Keyword}
    {pattern : Pattern}
    (compiled : compile id text given = .ok pattern) :
    pattern.tokens = Token.ofProse (unmark text.toList).prose ∧
      ∀ keyword ∈ Keyword.marked,
        (marker keyword <:+: (unmark text.toList).prose ↔
          wrappedMarker keyword <:+: text.toList) ∧
        ((marker keyword).map .literal <:+: pattern.tokens ↔
          wrappedMarker keyword <:+: text.toList) ∧
        (wrappedMarker keyword <:+: text.toList → ∀ searched : String,
          (pattern.anchorOffset? searched).isSome → marker keyword <:+: searched.toList) := by
  obtain ⟨tokens_eq, -⟩ := ofText_eq_ok (ofText_of_compile_eq_ok compiled)
  have single := (isPattern_of_compile_eq_ok compiled).markers
  refine ⟨tokens_eq, fun keyword isMarked => ?_⟩
  have left_iff := marker_infix_unmark_iff single isMarked
  have literal_iff :
      (marker keyword).map .literal <:+: pattern.tokens ↔
        wrappedMarker keyword <:+: text.toList :=
    (map_literal_marker_infix_iff (reads_iff.2 tokens_eq)).trans left_iff
  refine ⟨left_iff, literal_iff, fun isWrapped searched found => ?_⟩
  rw [anchorOffset?, Option.isSome_map, isSome_find?_iff] at found
  obtain ⟨before, parts, isMatch⟩ := found
  have inParts := infix_flatten_of_takes isMatch.takes (literal_iff.2 isWrapped)
  exact (List.infix_append_of_infix_right inParts).trans isMatch.stands.isInfix

/-- Two markers that share an asterisk: one is taken away, and none is left. -/
theorem compile_leaves_marker_iff_shared :
    let tokens : List Token :=
      [.literal '*', .literal 's', .literal 'h', .literal 'o', .literal 'u', .literal 'l',
        .literal 'd', .literal 'm', .literal 'u', .literal 's', .literal 't', .anchor]
    compile "draw" "*should*must*<^>" none = .ok ⟨tokens, .must⟩ ∧
      ∀ keyword ∈ Keyword.marked,
        ¬ marker keyword <:+: (unmark "*should*must*<^>".toList).prose ∧
          ¬ (marker keyword).map .literal <:+: tokens := by
  intro tokens
  have compiled : compile "draw" "*should*must*<^>" none = .ok ⟨tokens, .must⟩ := by cbv
  refine ⟨compiled, fun keyword isMarked => ?_⟩
  have notWrapped : ¬ wrappedMarker keyword <:+: "*should*must*<^>".toList := by
    rw [← Text.occursIn_eq_true_iff]
    revert keyword
    decide +kernel
  obtain ⟨left_iff, literal_iff, -⟩ := (compile_leaves_marker_iff compiled).2 keyword isMarked
  exact ⟨mt left_iff.1 notWrapped, mt literal_iff.1 notWrapped⟩

/-- A wrapped marker is left: the pattern is found where the asterisks stand, and not where the
keyword stands alone. -/
theorem compile_leaves_wrapped_marker :
    let tokens : List Token :=
      [.literal '*', .literal 'm', .literal 'u', .literal 's', .literal 't', .literal '*', .anchor]
    compile "draw" "**must**<^>" none = .ok ⟨tokens, .must⟩ ∧
      Token.ofProse (unmark "**must**<^>".toList).prose = tokens ∧
      marker .must <:+: (unmark "**must**<^>".toList).prose ∧
      (Pattern.mk tokens .must).anchorOffset? "must" = none ∧
      (Pattern.mk tokens .must).anchorOffset? "*must*" = some 6 := by
  intro tokens
  refine ⟨by cbv, by cbv, ?_, by decide +kernel, by decide +kernel⟩
  rw [← Text.occursIn_eq_true_iff]
  decide +kernel

end Pattern

end Prose
end Conformance
