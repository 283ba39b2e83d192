import Conformance.Proofs.Translator.Dialects

/-!
# Marks are resolved statement by statement

Semicolons divide the code of a line into statements.  Resolving marks steps over statements that do
not begin with the keyword, and renames the first one that does, if the mark is at the end of the
line.  Everything follows from the step over one statement.
-/

namespace Conformance
namespace Body

open scoped Text

variable {keyword renamed blanks statement code front lead operands : List Char}

/-- What the statements that can be marked begin with. -/
structure IsKeyword (keyword : List Char) : Prop where
  nonempty : keyword ≠ []
  noBlank : ∀ character ∈ keyword, Text.isBlank character = false
  noSemicolon : ';' ∉ keyword

/-- A statement of the code begins with the keyword, after blanks. -/
def HoldsStatement (keyword code : List Char) : Prop :=
  ∃ statement ∈ code.splitOn ';', keyword <+: statement.dropWhile Text.isBlank

instance (keyword code : List Char) : Decidable (HoldsStatement keyword code) :=
  inferInstanceAs (Decidable (∃ statement ∈ code.splitOn ';', _))

/-- Code that ends between two statements: only blanks stand behind its last semicolon. -/
inductive EndsBetween : List Char → Prop
  | blank
      {blanks : List Char}
      (allBlank : ∀ character ∈ blanks, Text.isBlank character = true) :
      EndsBetween blanks
  | statement
      {statement code : List Char}
      (single : ';' ∉ statement)
      (others : EndsBetween code) :
      EndsBetween (statement ++ ';' :: code)

theorem endsBetween_append_semicolon
    (code : List Char)
    (allBlank : ∀ character ∈ blanks, Text.isBlank character = true) :
    EndsBetween (code ++ ';' :: blanks) := by
  by_cases several : ';' ∈ code
  · obtain ⟨statement, later, parts, single⟩ := List.eq_append_cons_of_mem several
    rw [parts, List.append_assoc, List.cons_append]
    exact .statement single (endsBetween_append_semicolon later allBlank)
  · exact .statement several (.blank allBlank)
termination_by code.length
decreasing_by
  simp only [parts, List.length_append, List.length_cons]
  omega

/-! ## Statements of code that is put together -/

theorem dropWhile_append_semicolon (statement code : List Char) :
    (statement ++ ';' :: code).dropWhile Text.isBlank =
      statement.dropWhile Text.isBlank ++ ';' :: code := by
  have notBlank : Text.isBlank ';' = false := by decide
  rw [List.dropWhile_append]
  split
  · next allBlank => simp [List.isEmpty_iff.1 allBlank, notBlank]
  · rfl

theorem holdsStatement_append_cons_iff (single : ';' ∉ statement) :
    HoldsStatement keyword (statement ++ ';' :: code) ↔
      keyword <+: statement.dropWhile Text.isBlank ∨ HoldsStatement keyword code := by
  rw [HoldsStatement, List.splitOn_append_cons_self_of_not_mem single]
  simp [HoldsStatement]

theorem not_mem_of_blank (allBlank : ∀ character ∈ blanks, Text.isBlank character = true) :
    ';' ∉ blanks :=
  fun member => absurd (allBlank _ member) (by decide)

theorem not_holdsStatement_of_blank
    (isKeyword : IsKeyword keyword)
    (allBlank : ∀ character ∈ blanks, Text.isBlank character = true) :
    ¬ HoldsStatement keyword blanks := by
  rw [HoldsStatement, List.splitOn_eq_singleton (not_mem_of_blank allBlank)]
  simpa [List.dropWhile_eq_nil_iff.2 allBlank] using isKeyword.nonempty

/-- Where a statement begins with the keyword, a first one does. -/
theorem exists_first_statement
    (isKeyword : IsKeyword keyword)
    (between : EndsBetween lead)
    (holds : HoldsStatement keyword lead) :
    ∃ front back, lead = front ++ keyword ++ back ∧ EndsBetween front ∧
      ¬ HoldsStatement keyword front := by
  induction between with
  | blank allBlank => exact absurd holds (not_holdsStatement_of_blank isKeyword allBlank)
  | @statement statement code single others inductionHypothesis =>
      by_cases begins : keyword <+: statement.dropWhile Text.isBlank
      · obtain ⟨back, dropped⟩ := begins
        have allBlank : ∀ character ∈ statement.takeWhile Text.isBlank,
            Text.isBlank character = true := fun character member =>
          List.all_eq_true.1 List.all_takeWhile character member
        refine ⟨statement.takeWhile Text.isBlank, back ++ ';' :: code, ?_, .blank allBlank,
          not_holdsStatement_of_blank isKeyword allBlank⟩
        conv => lhs; rw [← List.takeWhile_append_dropWhile (p := Text.isBlank) (l := statement)]
        rw [← dropped]
        simp only [List.append_assoc]
      · have later := ((holdsStatement_append_cons_iff single).1 holds).resolve_left begins
        obtain ⟨front, back, rfl, ends, first⟩ := inductionHypothesis later
        refine ⟨statement ++ ';' :: front, back, by simp, .statement single ends, ?_⟩
        rw [holdsStatement_append_cons_iff single, not_or]
        exact ⟨begins, first⟩

/-! ## The step over a statement -/

theorem renameMarkedLater_append
    (noBreak : '\n' ∉ front)
    (single : ';' ∉ front)
    (code : List Char) :
    renameMarkedLater keyword renamed (front ++ code) =
      front ++ renameMarkedLater keyword renamed code := by
  induction front with
  | nil => rfl
  | cons character front inductionHypothesis =>
      rw [List.mem_cons, not_or] at noBreak single
      rw [List.cons_append, renameMarkedLater_cons,
        if_neg (not_or.2 ⟨Ne.symm noBreak.1, Ne.symm single.1⟩),
        inductionHypothesis noBreak.2 single.2, List.cons_append]

theorem markedStatement?_of_not_prefix
    (absent : ¬ keyword <+: code.dropWhile Text.isBlank) :
    markedStatement? keyword code = none := by
  rw [markedStatement?_eq, Text.after?_eq_none_iff.2 absent]
  rfl

theorem renameMarked_append_cons
    (isKeyword : IsKeyword keyword)
    (noBreak : '\n' ∉ statement)
    (single : ';' ∉ statement)
    (absent : ¬ keyword <+: statement.dropWhile Text.isBlank)
    (code : List Char) :
    renameMarked keyword renamed (statement ++ ';' :: code) =
      statement ++ ';' :: renameMarked keyword renamed code := by
  have none? : markedStatement? keyword (statement ++ ';' :: code) = none := by
    refine markedStatement?_of_not_prefix fun begins => absent ?_
    rw [dropWhile_append_semicolon] at begins
    exact Text.prefix_of_prefix_append_cons isKeyword.noSemicolon begins
  rw [renameMarked, none?]
  simp only [renameMarkedLater_append noBreak single, renameMarkedLater_cons, or_true, if_true]

theorem renameMarked_blanks_append
    (noBreak : '\n' ∉ blanks)
    (allBlank : ∀ character ∈ blanks, Text.isBlank character = true)
    (code : List Char) :
    renameMarked keyword renamed (blanks ++ code) =
      blanks ++ renameMarked keyword renamed code := by
  have marked : markedStatement? keyword (blanks ++ code) =
      (markedStatement? keyword code).map fun parts => (blanks ++ parts.1, parts.2) := by
    simp only [markedStatement?_eq, List.takeWhile_append_of_pos allBlank,
      List.dropWhile_append_of_pos allBlank, Option.map_map]
    rfl
  rw [renameMarked, marked, renameMarked]
  cases markedStatement? keyword code with
  | none => exact renameMarkedLater_append noBreak (not_mem_of_blank allBlank) code
  | some parts => simp

/-- Statements that do not begin with the keyword stay as they are. -/
theorem renameMarked_append
    (isKeyword : IsKeyword keyword)
    (between : EndsBetween lead)
    (noBreak : '\n' ∉ lead)
    (absent : ¬ HoldsStatement keyword lead)
    (code : List Char) :
    renameMarked keyword renamed (lead ++ code) = lead ++ renameMarked keyword renamed code := by
  induction between with
  | blank allBlank => exact renameMarked_blanks_append noBreak allBlank code
  | statement single others inductionHypothesis =>
      rw [List.mem_append, List.mem_cons, not_or, not_or] at noBreak
      rw [holdsStatement_append_cons_iff single, not_or] at absent
      rw [List.append_assoc, List.cons_append,
        renameMarked_append_cons isKeyword noBreak.1 single absent.1,
        inductionHypothesis noBreak.2.2 absent.2, List.append_assoc, List.cons_append]

/-- A statement that begins with the keyword reaches to the mark at the end of its line. -/
theorem renameMarked_keyword_append
    (isKeyword : IsKeyword keyword)
    (noBreak : '\n' ∉ operands) :
    renameMarked keyword renamed (keyword ++ operands ++ todoMark) =
      renamed ++ operands ++ ";" := by
  have noBlanks : (keyword ++ (operands ++ todoMark)).takeWhile Text.isBlank = [] ∧
      (keyword ++ (operands ++ todoMark)).dropWhile Text.isBlank =
        keyword ++ (operands ++ todoMark) := by
    obtain ⟨first, others, rfl⟩ := List.exists_cons_of_ne_nil isKeyword.nonempty
    have notBlank := isKeyword.noBlank first List.mem_cons_self
    simp [notBlank]
  have oneLine : '\n' ∉ operands ++ todoMark := by
    simp [todoMark, Text.chars_eq_toList, noBreak]
  have split : Text.splitLast? todoMark (operands ++ todoMark) = some (operands, []) := by
    refine Text.splitLast?_eq_some_iff.2 ⟨by simp, fun {front back} parts => ?_⟩
    have lengths := congrArg List.length parts
    simp only [List.length_append] at lengths
    omega
  have marked : markedStatement? keyword (keyword ++ operands ++ todoMark) =
      some ([], operands, []) := by
    simp [markedStatement?_eq, noBlanks.1, noBlanks.2, Text.after?_append_self,
      Text.firstLine_eq_self oneLine, Text.afterFirstLine_eq_nil oneLine, split]
  rw [renameMarked, marked]
  simp [renameMarkedLater]

/-- The first statement that begins with the keyword is renamed. -/
theorem renameMarked_first
    (isKeyword : IsKeyword keyword)
    (between : EndsBetween front)
    (noBreak : '\n' ∉ front)
    (first : ¬ HoldsStatement keyword front)
    (oneLine : '\n' ∉ operands) :
    renameMarked keyword renamed (front ++ (keyword ++ operands ++ todoMark)) =
      front ++ (renamed ++ operands ++ ";") := by
  rw [renameMarked_append isKeyword between noBreak first,
    renameMarked_keyword_append isKeyword oneLine]

theorem todoMark_eq : todoMark = ";" ++ " @moz-todo" := by
  simp [todoMark, Text.chars_eq_toList]

/-- A mark without a statement in front of it is left as it is. -/
theorem renameMarked_mark (keyword renamed : List Char) :
    renameMarked keyword renamed " @moz-todo" = " @moz-todo" := by
  have none? : markedStatement? keyword " @moz-todo" = none := by
    rw [Option.eq_none_iff_forall_ne_some]
    intro parts found
    have lengths := congrArg List.length (eq_of_markedStatement?_eq_some found)
    have semicolon : (Text.chars ";").length = 1 := by simp [Text.chars_eq_toList]
    simp only [List.length_append, todoMark_eq] at lengths
    omega
  have noBreak : '\n' ∉ Text.chars " @moz-todo" := by simp [Text.chars_eq_toList]
  have single : ';' ∉ Text.chars " @moz-todo" := by simp [Text.chars_eq_toList]
  have later : renameMarkedLater keyword renamed (Text.chars " @moz-todo" ++ []) =
      " @moz-todo" ++ renameMarkedLater keyword renamed [] :=
    renameMarkedLater_append noBreak single []
  rw [renameMarked, none?]
  simpa [renameMarkedLater] using later

end Body
end Conformance
