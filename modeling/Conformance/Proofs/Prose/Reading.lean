import Conformance.Prose.Token
import Conformance.Proofs.Text.Search

/-!
# Reading prose

A reading splits prose into its tokens: a placeholder is one token, so is a whole run of blanks,
and every other character stands for itself.  Each prose has exactly one reading, and the reading
has as many anchors as the prose.
-/

namespace Conformance
namespace Prose

open scoped Text

/-- The placeholders and the tokens that they stand for. -/
def placeholders : List (List Char × Token) :=
  [("<^>", .anchor), ("<...>", .any), ("<eol>", .lineEnd)]

/-- The tokens that prose is read as. -/
inductive Reads : List Char → List Token → Prop where
  /-- There is nothing to read. -/
  | nil : Reads [] []
  /-- A placeholder is read as its token. -/
  | placeholder
      {spelling prose : List Char}
      {token : Token}
      {tokens : List Token}
      (isPlaceholder : (spelling, token) ∈ placeholders)
      (rest : Reads prose tokens) :
      Reads (spelling ++ prose) (token :: tokens)
  /-- A run of blanks, up to the next character that is none, is read as one token. -/
  | blanks
      {run prose : List Char}
      {tokens : List Token}
      (nonempty : run ≠ [])
      (allBlank : ∀ character ∈ run, Text.isBlank character = true)
      (ended : ∀ character ∈ prose.head?, Text.isBlank character = false)
      (rest : Reads prose tokens) :
      Reads (run ++ prose) (.blanks :: tokens)
  /-- Any other character is read as itself. -/
  | literal
      {character : Char}
      {prose : List Char}
      {tokens : List Token}
      (notBlank : Text.isBlank character = false)
      (noPlaceholder : ∀ spelled ∈ placeholders, ¬ spelled.1 <+: character :: prose)
      (rest : Reads prose tokens) :
      Reads (character :: prose) (.literal character :: tokens)

theorem placeholders_eq :
    placeholders =
      [(['<', '^', '>'], .anchor), (['<', '.', '.', '.', '>'], .any),
        (['<', 'e', 'o', 'l', '>'], .lineEnd)] := by
  simp [placeholders, Text.chars_eq_toList]

theorem length_pos_of_mem_placeholders
    {spelled : List Char × Token}
    (isPlaceholder : spelled ∈ placeholders) :
    0 < spelled.1.length := by
  simp only [placeholders_eq, List.mem_cons, List.not_mem_nil, or_false] at isPlaceholder
  rcases isPlaceholder with rfl | rfl | rfl
  all_goals simp

theorem ofProse_append_of_mem_placeholders
    {spelled : List Char × Token}
    (isPlaceholder : spelled ∈ placeholders)
    (prose : List Char) :
    Token.ofProse (spelled.1 ++ prose) = spelled.2 :: Token.ofProse prose := by
  simp only [placeholders_eq, List.mem_cons, List.not_mem_nil, or_false] at isPlaceholder
  rcases isPlaceholder with rfl | rfl | rfl
  all_goals simp only [List.cons_append, List.nil_append, Token.ofProse]

/-- A character at which no placeholder begins is a blank or stands for itself. -/
theorem ofProse_cons_of_no_placeholder
    {character : Char}
    {prose : List Char}
    (noPlaceholder : ∀ spelled ∈ placeholders, ¬ spelled.1 <+: character :: prose) :
    Token.ofProse (character :: prose) =
      if Text.isBlank character then .blanks :: Token.ofProse (Token.afterBlanks prose)
      else .literal character :: Token.ofProse prose := by
  rw [Token.ofProse.eq_5]
  all_goals
    rintro text rfl rfl
    simp [placeholders_eq] at noPlaceholder

theorem ne_of_isBlank {character : Char} (isBlank : Text.isBlank character = true) :
    '<' ≠ character := by
  rintro rfl
  exact absurd isBlank (by decide)

/-- A blank begins no placeholder. -/
theorem not_prefix_of_isBlank
    {character : Char}
    (isBlank : Text.isBlank character = true)
    (prose : List Char) :
    ∀ spelled ∈ placeholders, ¬ spelled.1 <+: character :: prose := by
  simp [placeholders_eq, List.cons_prefix_cons, ne_of_isBlank isBlank]

/-! ## Every prose has a reading -/

theorem isBlank_eq_false_of_mem_head?_afterBlanks
    {text : List Char}
    {character : Char}
    (member : character ∈ (Token.afterBlanks text).head?) :
    Text.isBlank character = false := by
  have left := List.head?_dropWhile_not Text.isBlank text
  rw [← Token.afterBlanks] at left
  rw [Option.mem_def.1 member] at left
  simpa using left

/-- The tokens of prose are a reading of it. -/
theorem reads_ofProse (prose : List Char) : Reads prose (Token.ofProse prose) := by
  match prose with
  | [] =>
      rw [Token.ofProse]
      exact .nil
  | character :: text =>
      by_cases begun : ∃ spelled ∈ placeholders, spelled.1 <+: character :: text
      · obtain ⟨spelled, isPlaceholder, rest, text_eq⟩ := begun
        rw [← text_eq, ofProse_append_of_mem_placeholders isPlaceholder]
        exact .placeholder isPlaceholder (reads_ofProse rest)
      · have noPlaceholder : ∀ spelled ∈ placeholders, ¬ spelled.1 <+: character :: text :=
          fun spelled isPlaceholder begins => begun ⟨spelled, isPlaceholder, begins⟩
        rw [ofProse_cons_of_no_placeholder noPlaceholder]
        cases blank : Text.isBlank character with
        | false => exact .literal blank noPlaceholder (reads_ofProse text)
        | true =>
            have run_eq : character :: text =
                (character :: text.takeWhile Text.isBlank) ++ Token.afterBlanks text := by
              rw [List.cons_append, Token.afterBlanks, List.takeWhile_append_dropWhile]
            rw [run_eq]
            refine .blanks (List.cons_ne_nil _ _) ?_
              (fun _ => isBlank_eq_false_of_mem_head?_afterBlanks)
              (reads_ofProse (Token.afterBlanks text))
            rw [List.forall_mem_cons]
            exact ⟨blank, List.all_eq_true.1 List.all_takeWhile⟩
termination_by prose.length
decreasing_by
  · rw [← text_eq, List.length_append]
    have positive := length_pos_of_mem_placeholders isPlaceholder
    omega
  · simp
  · have := Token.length_afterBlanks_le text
    simp only [List.length_cons]
    omega

/-! ## No prose has two readings -/

theorem afterBlanks_append
    {run prose : List Char}
    (allBlank : ∀ character ∈ run, Text.isBlank character = true)
    (ended : ∀ character ∈ prose.head?, Text.isBlank character = false) :
    Token.afterBlanks (run ++ prose) = prose := by
  rw [Token.afterBlanks, List.dropWhile_append_of_pos allBlank]
  cases prose with
  | nil => rfl
  | cons character prose => rw [List.dropWhile_cons_of_neg (by simp [ended character rfl])]

theorem eq_ofProse_of_reads
    {prose : List Char}
    {tokens : List Token}
    (reads : Reads prose tokens) :
    tokens = Token.ofProse prose := by
  induction reads with
  | nil => rw [Token.ofProse]
  | placeholder isPlaceholder rest inductionHypothesis =>
      rw [ofProse_append_of_mem_placeholders isPlaceholder, inductionHypothesis]
  | @blanks run prose tokens nonempty allBlank ended rest inductionHypothesis =>
      obtain ⟨character, others, rfl⟩ := List.exists_cons_of_ne_nil nonempty
      rw [List.forall_mem_cons] at allBlank
      rw [List.cons_append, ofProse_cons_of_no_placeholder (not_prefix_of_isBlank allBlank.1 _),
        if_pos allBlank.1, afterBlanks_append allBlank.2 ended, inductionHypothesis]
  | literal notBlank noPlaceholder rest inductionHypothesis =>
      rw [ofProse_cons_of_no_placeholder noPlaceholder, if_neg (by simp [notBlank]),
        inductionHypothesis]

/-- Prose has one reading, its tokens. -/
theorem reads_iff {prose : List Char} {tokens : List Token} :
    Reads prose tokens ↔ tokens = Token.ofProse prose := by
  refine ⟨eq_ofProse_of_reads, ?_⟩
  rintro rfl
  exact reads_ofProse prose

/-! ## Anchors -/

/-- A reading has as many anchors as the prose. -/
theorem count_anchor_eq_occurrences
    {prose : List Char}
    {tokens : List Token}
    (reads : Reads prose tokens) :
    tokens.count .anchor = Text.occurrences "<^>" prose := by
  rw [Text.chars_eq_toList]
  change tokens.count .anchor = Text.occurrences ['<', '^', '>'] prose
  induction reads with
  | nil => rw [Text.occurrences_nil, List.count_nil]
  | @placeholder spelling prose token tokens isPlaceholder rest inductionHypothesis =>
      simp only [placeholders_eq, List.mem_cons, List.not_mem_nil, or_false, Prod.mk.injEq]
        at isPlaceholder
      rcases isPlaceholder with ⟨rfl, rfl⟩ | ⟨rfl, rfl⟩ | ⟨rfl, rfl⟩
      · rw [Text.occurrences_of_after?_eq_some (Text.after?_append_self _ prose),
          List.count_cons_self, inductionHypothesis]
      · rw [List.cons_append, Text.occurrences_of_after?_eq_none (by simp [Text.after?]),
          Text.occurrences_append_of_not_mem (by decide), List.count_cons_of_ne (by simp),
          inductionHypothesis]
      · rw [List.cons_append, Text.occurrences_of_after?_eq_none (by simp [Text.after?]),
          Text.occurrences_append_of_not_mem (by decide), List.count_cons_of_ne (by simp),
          inductionHypothesis]
  | @blanks run prose tokens nonempty allBlank ended rest inductionHypothesis =>
      have absent : '<' ∉ run := fun member => ne_of_isBlank (allBlank _ member) rfl
      rw [Text.occurrences_append_of_not_mem absent, List.count_cons_of_ne (by simp),
        inductionHypothesis]
  | @literal character prose tokens notBlank noPlaceholder rest inductionHypothesis =>
      have absent : Text.after? ['<', '^', '>'] (character :: prose) = none := by
        rw [Option.eq_none_iff_forall_not_mem]
        intro after isAfter
        refine noPlaceholder (['<', '^', '>'], .anchor) (by simp [placeholders_eq]) ⟨after, ?_⟩
        exact (Text.after?_eq_some_iff.1 isAfter).symm
      rw [Text.occurrences_of_after?_eq_none absent, List.count_cons_of_ne (by simp),
        inductionHypothesis]

end Prose
end Conformance
