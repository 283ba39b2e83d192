import Conformance.Proofs.Translator.Dialects

/-!
# Which marks begin a directive

A mark, `@`, begins a directive, or it is stray: it stands in plain code or inside a directive.
Rendering keeps every stray mark, so standalone code is free of marks exactly if every mark of the
body begins a directive.  Embedded code is mended, and mending takes away marks of failing
statements.  In a body without such marks only the code of an assertion completes one, behind
`@moz-tod`; every other mark of a body that is accepted begins a directive.
-/

namespace Conformance

open scoped Text

/-! ## Marks of failing statements only -/

/-- Every directive mark of the text is the mark of a failing statement. -/
def OnlyTodo (text : List Char) : Prop :=
  ∀ behind, '@' :: behind <:+ text → Directive.todo.source <+: '@' :: behind

namespace OnlyTodo

variable {character : Char} {front text : List Char}

theorem nil : OnlyTodo [] := by
  intro behind isEnding
  simp at isEnding

theorem of_not_mem (unmarked : '@' ∉ text) : OnlyTodo text :=
  fun _ isEnding => absurd (isEnding.subset List.mem_cons_self) unmarked

theorem cons_iff :
    OnlyTodo (character :: text) ↔
      (character = '@' → Directive.todo.source <+: '@' :: text) ∧ OnlyTodo text := by
  constructor
  · intro only
    refine ⟨?_, fun behind isEnding => only behind (isEnding.trans (List.suffix_cons _ _))⟩
    rintro rfl
    exact only text (List.suffix_refl _)
  · rintro ⟨begins, only⟩ behind isEnding
    rcases List.suffix_cons_iff.1 isEnding with same | later
    · obtain ⟨rfl, rfl⟩ := List.cons.inj same
      exact begins rfl
    · exact only behind later

theorem append_iff (unmarked : '@' ∉ front) : OnlyTodo (front ++ text) ↔ OnlyTodo text := by
  induction front with
  | nil => rfl
  | cons character front inductionHypothesis =>
      rw [List.mem_cons, not_or] at unmarked
      rw [List.cons_append, cons_iff, inductionHypothesis unmarked.2]
      exact and_iff_right fun isMark => absurd isMark.symm unmarked.1

/-- A character that the mark does not hold divides the text. -/
theorem append_cons_iff (absent : character ∉ Directive.todo.source) :
    OnlyTodo (front ++ character :: text) ↔ OnlyTodo front ∧ OnlyTodo text := by
  induction front with
  | nil =>
      rw [List.nil_append, cons_iff, and_iff_right, and_iff_right nil]
      rintro rfl
      simp [HoldsTodo.source_todo] at absent
  | cons first front inductionHypothesis =>
      rw [List.cons_append, cons_iff, cons_iff, inductionHypothesis, and_assoc]
      refine and_congr_left fun _ => imp_congr_right fun _ => ⟨?_, ?_⟩
      · rw [← List.cons_append]
        exact Text.prefix_of_prefix_append_cons absent
      · intro begins
        exact begins.trans (List.prefix_append (_ :: front) _)

theorem of_append (only : OnlyTodo (front ++ text)) : OnlyTodo text :=
  fun behind isEnding => only behind (isEnding.trans (List.suffix_append _ _))

theorem holdsTodo (only : OnlyTodo text) (marked : '@' ∈ text) : HoldsTodo text := by
  obtain ⟨front, behind, rfl⟩ := List.append_of_mem marked
  have begins := only behind (List.suffix_append _ _)
  exact begins.isInfix.trans (List.suffix_append _ _).isInfix

end OnlyTodo

namespace Portion

variable {source behind : List Char} {portions : List Portion}

/-- Operands from a source without marks of failing statements hold no mark, if code holds only
such marks. -/
theorem unmarked_operands_of_onlyTodo
    (apart : Apart source portions)
    (unmarked : ¬ HoldsTodo source)
    (only : OnlyTodo (code portions ++ behind)) :
    ∀ operand ∈ operands portions, '@' ∉ operand := by
  rw [code_eq_flatMap] at only
  induction apart with
  | nil => simp [operands]
  | literal absent rest inductionHypothesis =>
      rw [List.flatMap_cons, List.append_assoc] at only
      exact inductionHypothesis only.of_append
  | @operand text literal portions fromSource separate rest inductionHypothesis =>
      obtain ⟨character, others, rfl, ends, -⟩ := exists_cons_of_separates separate
      rw [List.flatMap_cons, List.flatMap_cons, List.append_assoc, List.append_assoc,
        List.cons_append, OnlyTodo.append_cons_iff ends] at only
      rw [operands, operands, List.forall_mem_cons]
      exact ⟨fun marked => unmarked (fromSource (only.1.holdsTodo marked)),
        inductionHypothesis only.2.of_append⟩

end Portion

namespace Body

variable {stage : Stage} {text front rest : List Char} {directive : Directive}

/-! ## Mending keeps every other mark -/

section Mending

variable {keyword renamed word : List Char}

/-- A word without line breaks and semicolons begins mended code only if it begins the code. -/
theorem prefix_of_prefix_renameMarkedLater
    (noBreak : '\n' ∉ word)
    (noSemicolon : ';' ∉ word)
    (begins : word <+: renameMarkedLater keyword renamed text) :
    word <+: text := by
  induction text generalizing word with
  | nil =>
      rw [renameMarkedLater] at begins
      exact begins
  | cons character text inductionHypothesis =>
      cases word with
      | nil => exact List.nil_prefix
      | cons first word =>
          rw [List.mem_cons, not_or] at noBreak noSemicolon
          rw [renameMarkedLater_cons, List.cons_prefix_cons] at begins
          obtain ⟨rfl, further⟩ := begins
          have inside : ¬ (first = '\n' ∨ first = ';') :=
            not_or.2 ⟨Ne.symm noBreak.1, Ne.symm noSemicolon.1⟩
          rw [if_neg inside] at further
          exact List.cons_prefix_cons.2
            ⟨rfl, inductionHypothesis noBreak.2 noSemicolon.2 further⟩

theorem todoMark_eq_cons : todoMark = ';' :: ' ' :: Directive.todo.source := by
  simp [todoMark, HoldsTodo.source_todo, Text.chars_eq_toList]

theorem unmarked_blanks
    {blanks operands : List Char}
    (found : markedStatement? keyword text = some (blanks, operands, rest)) :
    '@' ∉ blanks := by
  rw [markedStatement?_eq, Option.map_eq_some_iff] at found
  obtain ⟨others, -, parts⟩ := found
  obtain ⟨rfl, -⟩ := Prod.mk.inj parts
  intro member
  exact absurd (List.mem_takeWhile_imp member) (by decide)

/-- The mark of a marked statement may be taken away: what is left of the text shows whether it
holds other marks. -/
theorem onlyTodo_of_markedStatement?
    (unmarkedKeyword : '@' ∉ keyword)
    (unmarkedRenamed : '@' ∉ renamed)
    {blanks operands mended : List Char}
    (found : markedStatement? keyword text = some (blanks, operands, rest))
    (later : OnlyTodo mended → OnlyTodo rest)
    (only : OnlyTodo (blanks ++ renamed ++ operands ++ ";" ++ mended)) :
    OnlyTodo text := by
  have unmarkedBlanks := unmarked_blanks found
  have separate : ';' ∉ Directive.todo.source := by simp [HoldsTodo.source_todo]
  have front : ∀ {lead}, '@' ∉ lead → '@' ∉ blanks ++ lead := by
    simp [unmarkedBlanks]
  have semicolon : Text.chars ";" ++ mended = ';' :: mended := by simp [Text.chars_eq_toList]
  rw [List.append_assoc _ (Text.chars ";"), semicolon, List.append_assoc,
    OnlyTodo.append_iff (front unmarkedRenamed), OnlyTodo.append_cons_iff separate] at only
  have mark : OnlyTodo (' ' :: (Directive.todo.source ++ rest)) := by
    rw [OnlyTodo.cons_iff, HoldsTodo.source_todo, List.cons_append, OnlyTodo.cons_iff,
      OnlyTodo.append_iff (by decide), HoldsTodo.source_todo]
    exact ⟨fun isMark => absurd isMark (by decide), fun _ => List.prefix_append _ _, later only.2⟩
  rw [eq_of_markedStatement?_eq_some found, todoMark_eq_cons, List.append_assoc, List.append_assoc,
    OnlyTodo.append_iff (front unmarkedKeyword), List.cons_append,
    OnlyTodo.append_cons_iff separate]
  exact ⟨only.1, mark⟩

theorem onlyTodo_of_renameMarkedLater
    (unmarkedKeyword : '@' ∉ keyword)
    (unmarkedRenamed : '@' ∉ renamed)
    (only : OnlyTodo (renameMarkedLater keyword renamed text)) :
    OnlyTodo text := by
  fun_induction renameMarkedLater keyword renamed text with
  | case1 => exact .nil
  | case2 character text blanks operands rest found inductionHypothesis =>
      split at found
      · next begins =>
          rw [OnlyTodo.cons_iff] at only ⊢
          refine ⟨fun isMark => ?_, onlyTodo_of_markedStatement? unmarkedKeyword unmarkedRenamed
            found inductionHypothesis only.2⟩
          subst isMark
          exact absurd begins (by decide)
      · cases found
  | case3 character text absent inductionHypothesis =>
      rw [OnlyTodo.cons_iff] at only ⊢
      refine ⟨fun isMark => ?_, inductionHypothesis only.2⟩
      have begins := only.1 isMark
      rw [HoldsTodo.source_todo, List.cons_prefix_cons] at begins ⊢
      exact ⟨rfl, prefix_of_prefix_renameMarkedLater (by decide) (by decide) begins.2⟩

/-- Resolving marks takes away no other mark. -/
theorem onlyTodo_of_renameMarked
    (unmarkedKeyword : '@' ∉ keyword)
    (unmarkedRenamed : '@' ∉ renamed)
    (only : OnlyTodo (renameMarked keyword renamed text)) :
    OnlyTodo text := by
  rw [renameMarked] at only
  split at only
  · next blanks operands rest found =>
      exact onlyTodo_of_markedStatement? unmarkedKeyword unmarkedRenamed found
        (onlyTodo_of_renameMarkedLater unmarkedKeyword unmarkedRenamed) only
  · exact onlyTodo_of_renameMarkedLater unmarkedKeyword unmarkedRenamed only

end Mending

/-! ## Stray marks -/

namespace Piece

/-- Whether the piece is a directive. -/
def isDirective : Piece → Bool
  | .plain _ => false
  | .active _ => true

/-- The piece holds a mark that begins no directive. -/
def IsStray : Piece → Prop
  | .plain character => character = '@'
  | .active directive => ∃ operand ∈ directive.operands, '@' ∈ operand

/-- A directive that is not stray begins with its only mark. -/
theorem exists_source_eq_cons (directive : Directive) :
    ∃ others, directive.source = '@' :: others ∧
      ('@' ∈ others ↔ (Piece.active directive).IsStray) := by
  rcases directive with _ | ⟨_, _, _ | _ | _⟩ | _ | _ | ⟨_, comparison, _⟩ | _ | _ | _ | _ | _ <;>
    refine ⟨_, by simp [Directive.source, Text.chars_eq_toList]; rfl, ?_⟩ <;>
    simp [IsStray, Directive.operands, Directive.unmarked_spaced]

theorem source_ne_nil (piece : Piece) : piece.source ≠ [] := by
  cases piece with
  | plain character => exact List.cons_ne_nil _ _
  | active directive => exact directive.source_ne_nil

/-- A stray mark stands anywhere but at the beginning of a directive. -/
theorem isStray_iff (piece : Piece) :
    piece.IsStray ↔
      ∃ front behind, piece.source = front ++ '@' :: behind ∧
        ¬ (piece.isDirective = true ∧ front = []) := by
  cases piece with
  | plain character =>
      simp only [IsStray, source, isDirective, List.singleton_eq_append_iff]
      constructor
      · rintro rfl
        exact ⟨[], [], by simp, by simp⟩
      · rintro ⟨front, behind, ⟨rfl, same⟩ | ⟨-, nothing⟩, -⟩
        · exact (List.cons.inj same).1.symm
        · cases nothing
  | active directive =>
      obtain ⟨others, source_eq, stray⟩ := exists_source_eq_cons directive
      rw [← stray, source, source_eq]
      constructor
      · intro marked
        obtain ⟨front, behind, rfl⟩ := List.append_of_mem marked
        exact ⟨'@' :: front, behind, rfl, by simp⟩
      · rintro ⟨front, behind, parts, notFirst⟩
        cases front with
        | nil => exact absurd ⟨rfl, rfl⟩ notFirst
        | cons first front =>
            rw [(List.cons.inj parts).2]
            simp

/-- Behind a piece without stray marks come the marks of the rest, unless the piece itself begins
with the mark. -/
theorem eq_nil_or_exists_of_not_isStray
    {piece : Piece}
    (notStray : ¬ piece.IsStray)
    {behind : List Char}
    (parts : piece.source ++ rest = front ++ '@' :: behind) :
    (piece.isDirective = true ∧ front = []) ∨
      ∃ later, front = piece.source ++ later ∧ rest = later ++ '@' :: behind := by
  obtain ⟨later, front_eq, rest_eq⟩ | ⟨later, source_eq, behind_eq⟩ :=
    List.append_eq_append_iff.1 parts
  · exact .inr ⟨later, front_eq, rest_eq⟩
  · cases later with
    | nil =>
        rw [List.append_nil] at source_eq
        exact .inr ⟨[], by rw [source_eq, List.append_nil], behind_eq.symm⟩
    | cons first later =>
        obtain ⟨rfl, -⟩ := List.cons.inj behind_eq
        rw [isStray_iff] at notStray
        exact .inl (not_not.1 fun notFirst => notStray ⟨front, later, source_eq, notFirst⟩)

/-- A piece holds its stray marks and, if it is a directive, one more. -/
theorem exists_count_source_eq (piece : Piece) :
    ∃ strays, piece.source.count '@' = (if piece.isDirective then 1 else 0) + strays ∧
      (strays = 0 ↔ ¬ piece.IsStray) := by
  cases piece with
  | plain character =>
      exact ⟨[character].count '@', by simp [source, isDirective], by
        simp [IsStray, List.count_eq_zero, eq_comm]⟩
  | active directive =>
      obtain ⟨others, source_eq, stray⟩ := exists_source_eq_cons directive
      refine ⟨others.count '@', ?_, by rw [List.count_eq_zero, stray]⟩
      rw [source, source_eq, List.count_cons_self, Nat.add_comm]
      rfl

end Piece

/-- Behind a front part of the text that the pieces make up, a directive begins. -/
def DirectiveBehind (pieces : List Piece) (front : List Char) : Prop :=
  ∃ earlier directive later, pieces = earlier ++ .active directive :: later ∧
    earlier.flatMap Piece.source = front

namespace DirectiveBehind

variable {pieces : List Piece} {piece : Piece}

theorem cons (piece : Piece) (begins : DirectiveBehind pieces front) :
    DirectiveBehind (piece :: pieces) (piece.source ++ front) := by
  obtain ⟨earlier, directive, later, rfl, rfl⟩ := begins
  exact ⟨piece :: earlier, directive, later, rfl, rfl⟩

theorem cons_iff :
    DirectiveBehind (piece :: pieces) front ↔
      (piece.isDirective = true ∧ front = []) ∨
        ∃ behind, front = piece.source ++ behind ∧ DirectiveBehind pieces behind := by
  constructor
  · rintro ⟨earlier, directive, later, parts, rfl⟩
    cases earlier with
    | nil =>
        obtain ⟨rfl, rfl⟩ := List.cons.inj parts
        exact .inl ⟨rfl, rfl⟩
    | cons first earlier =>
        obtain ⟨rfl, rfl⟩ := List.cons.inj parts
        exact .inr ⟨_, rfl, earlier, directive, later, rfl, rfl⟩
  · rintro (⟨isDirective, rfl⟩ | ⟨behind, rfl, begins⟩)
    · cases piece with
      | plain character => cases isDirective
      | active directive => exact ⟨[], directive, pieces, rfl, rfl⟩
    · exact begins.cons piece

end DirectiveBehind

/-- Pieces hold no stray mark exactly if a directive begins at every mark of theirs. -/
theorem forall_directiveBehind_iff {pieces : List Piece} :
    (∀ front behind, pieces.flatMap Piece.source = front ++ '@' :: behind →
      DirectiveBehind pieces front) ↔ ∀ piece ∈ pieces, ¬ piece.IsStray := by
  induction pieces with
  | nil => simp
  | cons piece pieces inductionHypothesis =>
      rw [List.forall_mem_cons, ← inductionHypothesis, List.flatMap_cons]
      constructor
      · intro begins
        constructor
        · rw [Piece.isStray_iff]
          rintro ⟨front, behind, source_eq, notFirst⟩
          rcases DirectiveBehind.cons_iff.1 (begins front (behind ++ pieces.flatMap Piece.source)
            (by simp [source_eq])) with first | ⟨later, rfl, -⟩
          · exact notFirst first
          · have longer := congrArg List.length source_eq
            simp only [List.length_append, List.length_cons] at longer
            omega
        · intro front behind parts
          rcases DirectiveBehind.cons_iff.1 (begins (piece.source ++ front) behind
            (by simp [parts])) with ⟨-, nothing⟩ | ⟨later, same, isLater⟩
          · exact absurd (List.append_eq_nil_iff.1 nothing).1 piece.source_ne_nil
          · rwa [List.append_cancel_left same]
      · rintro ⟨notStray, others⟩ front behind parts
        rcases Piece.eq_nil_or_exists_of_not_isStray notStray parts with
          first | ⟨later, rfl, rest_eq⟩
        · exact DirectiveBehind.cons_iff.2 (.inl first)
        · exact (others later behind rest_eq).cons piece

/-- There are as many directives as marks exactly if no mark is stray. -/
theorem countP_isDirective_eq_iff (pieces : List Piece) :
    pieces.countP Piece.isDirective = (pieces.flatMap Piece.source).count '@' ↔
      ∀ piece ∈ pieces, ¬ piece.IsStray := by
  have both : pieces.countP Piece.isDirective ≤ (pieces.flatMap Piece.source).count '@' ∧
      (pieces.countP Piece.isDirective = (pieces.flatMap Piece.source).count '@' ↔
        ∀ piece ∈ pieces, ¬ piece.IsStray) := by
    induction pieces with
    | nil => simp
    | cons piece pieces inductionHypothesis =>
        obtain ⟨strays, count_eq, none_iff⟩ := piece.exists_count_source_eq
        obtain ⟨fewer, same_iff⟩ := inductionHypothesis
        rw [List.countP_cons, List.flatMap_cons, List.count_append, count_eq, List.forall_mem_cons,
          ← none_iff, ← same_iff]
        omega
  exact both.2

/-- Every mark of the text begins a directive. -/
def MarksBegin (text : List Char) : Prop :=
  ∀ front behind, text = front ++ '@' :: behind → DirectiveBehind (pieces .directive text) front

theorem marksBegin_iff (text : List Char) :
    MarksBegin text ↔ ∀ piece ∈ pieces .directive text, ¬ piece.IsStray := by
  rw [← forall_directiveBehind_iff, flatMap_source_pieces]
  rfl

/-! ## Stray marks in code -/

theorem isRewritten_or_eq_todo_of_mem_pieces
    (member : .active directive ∈ pieces .directive text) :
    directive.isRewritten = true ∨ directive = .todo := by
  obtain ⟨front, rest, found⟩ := exists_read?_of_mem_pieces member
  exact Directive.isRewritten_or_eq_todo_of_read?_eq_some found

theorem mem_withoutSpace_iff (written : List Char) :
    '@' ∈ withoutSpace written ↔ '@' ∈ written := by
  unfold withoutSpace
  split <;> simp

/-- Writing a piece in standalone code keeps the marks that are written already, and adds the stray
ones. -/
theorem mem_write_standalone_iff
    {tolerance : Nat}
    {piece : Piece}
    (known : ∀ directive, piece = .active directive →
      directive.isRewritten = true ∨ directive = .todo)
    (written : List Char) :
    '@' ∈ piece.write .standalone tolerance written ↔ piece.IsStray ∨ '@' ∈ written := by
  cases piece with
  | plain character => simp [Piece.write, Piece.IsStray, eq_comm]
  | active directive =>
      have kept : '@' ∈ (if directive.absorbsLeadingSpace then withoutSpace written else written) ↔
          '@' ∈ written := by
        split
        · exact mem_withoutSpace_iff written
        · rfl
      have code_iff : '@' ∈ Dialect.standalone.render tolerance directive ↔
          (Piece.active directive).IsStray := by
        rcases known directive rfl with rewritten | rfl
        · exact Directive.mem_render_iff rewritten .standalone tolerance
        · simp [Dialect.render, Directive.standalone, Piece.IsStray, Directive.operands,
            Text.chars_eq_toList]
      rw [Piece.write, List.mem_append, List.mem_reverse, code_iff, kept]

theorem mem_foldl_write_standalone_iff
    {tolerance : Nat}
    {pieces : List Piece}
    (known : ∀ directive, .active directive ∈ pieces →
      directive.isRewritten = true ∨ directive = .todo)
    (written : List Char) :
    '@' ∈ pieces.foldl (Piece.write .standalone tolerance) written ↔
      (∃ piece ∈ pieces, piece.IsStray) ∨ '@' ∈ written := by
  induction pieces generalizing written with
  | nil => simp
  | cons piece pieces inductionHypothesis =>
      rw [List.foldl_cons,
        inductionHypothesis (fun directive member => known directive (.tail _ member)),
        mem_write_standalone_iff
          (fun directive same => known directive (same ▸ List.mem_cons_self)),
        List.exists_mem_cons_iff, or_assoc, or_left_comm]

/-- Standalone code is free of marks exactly if every mark of the body begins a directive. -/
theorem not_mem_render_standalone_iff (tolerance : Nat) (text : List Char) :
    '@' ∉ render .standalone tolerance text ↔ MarksBegin text := by
  rw [render, List.mem_reverse,
    mem_foldl_write_standalone_iff fun _ => isRewritten_or_eq_todo_of_mem_pieces, marksBegin_iff]
  simp

/-! ## The seam -/

/-- What becomes the mark of a failing statement when the assertion is rendered. -/
def seam : List Char :=
  "@moz-tod@assert "

theorem seam_eq : seam = '@' :: (['m', 'o', 'z', '-', 't', 'o', 'd'] ++ Text.chars "@assert ") := by
  simp [seam, Text.chars_eq_toList]

/-- Where a directive begins, it is read. -/
theorem exists_read?_of_directiveBehind
    {behind : List Char}
    (begins : DirectiveBehind (pieces stage text) front)
    (parts : text = front ++ behind) :
    ∃ directive rest, Directive.read? stage behind = some (directive, rest) := by
  fun_induction pieces stage text generalizing front with
  | case1 =>
      obtain ⟨earlier, directive, later, nothing, -⟩ := begins
      simp at nothing
  | case2 character text directive rest found inductionHypothesis =>
      rcases DirectiveBehind.cons_iff.1 begins with ⟨-, rfl⟩ | ⟨later, rfl, beginsLater⟩
      · rw [List.nil_append] at parts
        exact ⟨directive, rest, parts ▸ found⟩
      · rw [Directive.eq_source_append_of_read?_eq_some found, Piece.source, List.append_assoc]
          at parts
        exact inductionHypothesis beginsLater (List.append_cancel_left parts)
  | case3 character text absent inductionHypothesis =>
      rcases DirectiveBehind.cons_iff.1 begins with ⟨nothing, -⟩ | ⟨later, rfl, beginsLater⟩
      · cases nothing
      · exact inductionHypothesis beginsLater (List.cons.inj parts).2

/-- No directive begins at the seam. -/
theorem read?_seam_append (rest : List Char) :
    Directive.read? .directive (seam ++ rest) = none := by
  have noAssertion : Text.after? "@assert " (seam ++ rest) = none := by
    rw [Text.after?_eq_none_iff, seam_eq]
    simp [Text.chars_eq_toList]
  have noMarker : ∀ marker ∈ Directive.markers,
      Text.after? marker.source (seam ++ rest) = none := by
    intro marker member
    rw [Text.after?_eq_none_iff, seam_eq]
    simp only [Directive.markers, List.mem_cons, List.not_mem_nil, or_false] at member
    rcases member with rfl | rfl | rfl | rfl <;> simp [Directive.source, Text.chars_eq_toList]
  rw [Directive.read?, noAssertion]
  refine List.findSome?_eq_none_iff.2 fun marker member => ?_
  rw [noMarker marker member, Option.map_none]

theorem not_seam_infix_of_marksBegin (marksBegin : MarksBegin text) : ¬ seam <:+: text := by
  rintro ⟨front, back, parts⟩
  rw [List.append_assoc] at parts
  have begins := marksBegin front _ (parts.symm.trans (by rw [seam_eq]; rfl))
  obtain ⟨directive, rest, found⟩ := exists_read?_of_directiveBehind begins parts.symm
  rw [read?_seam_append] at found
  cases found

/-- The code of a directive without marks of failing statements holds no other marks. -/
theorem not_isStray_of_onlyTodo
    (rewritten : directive.isRewritten = true)
    (unmarked : ¬ HoldsTodo directive.source)
    {dialect : Dialect}
    {tolerance : Nat}
    {behind : List Char}
    (only : OnlyTodo (dialect.render tolerance directive ++ behind)) :
    ¬ (Piece.active directive).IsStray := by
  obtain ⟨portions, isCode, spells⟩ := Directive.exists_spells rewritten dialect tolerance
  rw [isCode] at only
  rw [Piece.IsStray, ← spells.marked_iff]
  rintro ⟨operand, member, marked⟩
  exact Portion.unmarked_operands_of_onlyTodo spells.apart unmarked only operand member marked

/-- If embedded code holds only marks of failing statements, every mark of the body begins a
directive or the seam. -/
theorem directiveBehind_or_seam
    {tolerance : Nat}
    (unmarked : ¬ HoldsTodo text)
    (only : OnlyTodo (render .embedded tolerance text))
    {behind : List Char}
    (parts : text = front ++ '@' :: behind) :
    DirectiveBehind (pieces .directive text) front ∨ seam <+: '@' :: behind := by
  fun_induction pieces .directive text generalizing front with
  | case1 => simp at parts
  | case2 character text directive rest found inductionHypothesis =>
      -- literal code keeps operands apart, so a mark of an operand would be a failing statement's
      have unmarkedRest := unmarked_of_read? unmarked found
      have source_eq := Directive.eq_source_append_of_read?_eq_some found
      rw [render_of_read?_eq_some unmarked found] at only
      have notStray : ¬ (Piece.active directive).IsStray := by
        refine not_isStray_of_onlyTodo (isRewritten_of_read?_eq_some unmarked found) ?_ only
        rw [source_eq] at unmarked
        exact fun holds => unmarked (holds.mono (List.prefix_append _ _).isInfix)
      rcases Piece.eq_nil_or_exists_of_not_isStray notStray (source_eq.symm.trans parts) with
        first | ⟨later, rfl, rest_eq⟩
      · exact .inl (DirectiveBehind.cons_iff.2 (.inl first))
      · exact (inductionHypothesis unmarkedRest only.of_append rest_eq).imp_left
          (DirectiveBehind.cons (.active directive))
  | case3 character text absent inductionHypothesis =>
      have unmarkedRest := unmarked_of_cons unmarked
      rw [render_of_read?_eq_none unmarked absent, OnlyTodo.cons_iff] at only
      cases front with
      | nil =>
          obtain ⟨rfl, rfl⟩ := List.cons.inj parts
          -- the mark is plain, so the code behind it completes the mark of a failing statement
          have begins := only.1 rfl
          rw [HoldsTodo.source_todo, List.cons_prefix_cons] at begins
          rcases prefix_of_prefix_render unmarkedRest (by decide) (List.suffix_refl _) begins.2 with
            inText | ⟨lead, lead_eq, inText⟩
          · refine absurd ?_ unmarked
            rw [HoldsTodo, HoldsTodo.source_todo]
            exact (List.cons_prefix_cons.2 ⟨rfl, inText⟩).isInfix
          · obtain rfl : ['m', 'o', 'z', '-', 't', 'o', 'd'] = lead :=
              List.append_cancel_right lead_eq
            rw [seam_eq]
            exact .inr (List.cons_prefix_cons.2 ⟨rfl, inText⟩)
      | cons first front =>
          obtain ⟨rfl, rest_eq⟩ := List.cons.inj parts
          exact (inductionHypothesis unmarkedRest only.2 rest_eq).imp_left
            (DirectiveBehind.cons (.plain character))

end Body

namespace Translator

variable {translator : Translator} {body : String} {expanded : List Char}

/-- Code that is free of marks once it is mended held only marks of failing statements. -/
theorem onlyTodo_of_not_mem_embed
    (notDirectory : '@' ∉ translator.sharedImageDirectory.toList)
    {code : List Char}
    (free : '@' ∉ translator.embed code) :
    OnlyTodo code := by
  rw [embed] at free
  rw [Text.mem_replace_iff notDirectory, not_or] at free
  have mended := OnlyTodo.of_not_mem free.1
  exact Body.onlyTodo_of_renameMarked (by simp [Text.chars_eq_toList])
    (by simp [Text.chars_eq_toList])
    (Body.onlyTodo_of_renameMarked (by simp [Text.chars_eq_toList])
      (by simp [Text.chars_eq_toList]) mended)

theorem accepts_iff_of_expand_eq_ok
    {dialect : Dialect}
    (isExpanded : Body.expand body.toList = .ok expanded) :
    translator.Accepts dialect body ↔ '@' ∉ translator.render dialect expanded := by
  simp [accepts_iff, isExpanded]

/-- A body is accepted in the standalone dialect exactly if every mark of its expansion begins a
directive.  Where the expansion holds no mark of a failing statement, the same is true of every body
that the embedded dialect accepts, but for marks with `moz-tod` and an assertion behind them: these
are taken away without being read.  If every mark begins a directive, then no mark stands in plain
code or in an operand, and there are as many directives as marks; and only then. -/
theorem accepts_iff_marksBegin
    (isExpanded : Body.expand body.toList = .ok expanded) :
    (translator.Accepts .standalone body ↔ Body.MarksBegin expanded) ∧
    ('@' ∉ translator.sharedImageDirectory.toList → ¬ HoldsTodo expanded →
      translator.Accepts .embedded body →
        (∀ front behind, expanded = front ++ '@' :: behind →
          Body.DirectiveBehind (Body.pieces .directive expanded) front ∨
            Body.seam <+: '@' :: behind) ∧
        (Body.MarksBegin expanded ↔ ¬ Body.seam <:+: expanded)) ∧
    (Body.MarksBegin expanded ↔ ∀ piece ∈ Body.pieces .directive expanded, ¬ piece.IsStray) ∧
    (Body.MarksBegin expanded ↔
      (Body.pieces .directive expanded).countP Body.Piece.isDirective = expanded.count '@') := by
  refine ⟨?_, fun notDirectory unmarked accepted => ?_, Body.marksBegin_iff expanded, ?_⟩
  · exact (accepts_iff_of_expand_eq_ok isExpanded).trans (Body.not_mem_render_standalone_iff _ _)
  · have only := onlyTodo_of_not_mem_embed notDirectory
      ((accepts_iff_of_expand_eq_ok isExpanded).1 accepted)
    have each : ∀ front behind, expanded = front ++ '@' :: behind →
        Body.DirectiveBehind (Body.pieces .directive expanded) front ∨
          Body.seam <+: '@' :: behind :=
      fun front behind parts => Body.directiveBehind_or_seam unmarked only parts
    refine ⟨each, Body.not_seam_infix_of_marksBegin, fun noSeam front behind parts => ?_⟩
    refine (each front behind parts).resolve_right fun begins => noSeam ?_
    rw [parts]
    exact begins.isInfix.trans (List.suffix_append _ _).isInfix
  · have counted := Body.countP_isDirective_eq_iff (Body.pieces .directive expanded)
    rw [Body.flatMap_source_pieces, ← Body.marksBegin_iff] at counted
    exact counted.symm

/-- A marker and an assertion of a call at boundaries are two directives at two marks. -/
theorem accepts_iff_marksBegin_boundary :
    let body := "@manual; @nonfinite @assert g(<1 2>);"
    let expanded := "@manual; @assert g(2);".toList
    Body.expand body.toList = .ok expanded ∧
      '@' ∉ ({} : Translator).sharedImageDirectory.toList ∧ ¬ HoldsTodo expanded ∧
      ({} : Translator).Accepts .embedded body ∧ Body.MarksBegin expanded ∧
      (Body.pieces .directive expanded).countP Body.Piece.isDirective = 2 := by
  intro body expanded
  have isExpanded : Body.expand body.toList = .ok expanded := by decide +kernel
  have notDirectory : '@' ∉ ({} : Translator).sharedImageDirectory.toList := by decide
  have unmarked : ¬ HoldsTodo expanded := by
    rw [HoldsTodo, HoldsTodo.source_todo]
    decide +kernel
  have accepted : ({} : Translator).Accepts .embedded body :=
    ⟨"/* manual check required */ ok(g(2), \"g(2)\");", by decide +kernel⟩
  have noSeam : ¬ Body.seam <:+: expanded := by
    rw [Body.seam, Text.chars_eq_toList]
    decide +kernel
  have recognized := @accepts_iff_marksBegin {} body expanded isExpanded
  have marksBegin := (recognized.2.1 notDirectory unmarked accepted).2.2 noSeam
  have marks : expanded.count '@' = 2 := by decide +kernel
  exact ⟨isExpanded, notDirectory, unmarked, accepted, marksBegin,
    (recognized.2.2.2.1 marksBegin).trans marks⟩

/-- The code of an assertion completes the mark in front of it, and mending takes that mark away,
so the body is accepted although its first mark begins no directive. -/
theorem accepts_not_marksBegin :
    let body := "ok(f()); @moz-tod@assert x;"
    '@' ∉ ({} : Translator).sharedImageDirectory.toList ∧
      Body.expand body.toList = .ok body.toList ∧ ¬ HoldsTodo body.toList ∧
      ({} : Translator).translate .embedded body = .ok "todo(f());k(x, \"x\");" ∧
      ¬ Body.MarksBegin body.toList ∧
      (Body.pieces .directive body.toList).countP Body.Piece.isDirective = 1 ∧
      body.toList.count '@' = 2 := by
  intro body
  have unmarked : ¬ HoldsTodo body.toList := by
    rw [HoldsTodo, HoldsTodo.source_todo]
    decide +kernel
  have seams : Body.seam <:+: body.toList := by
    rw [Body.seam, Text.chars_eq_toList]
    decide +kernel
  exact ⟨by decide, by decide +kernel, unmarked, by decide +kernel,
    fun marksBegin => Body.not_seam_infix_of_marksBegin marksBegin seams, by decide +kernel,
    by decide +kernel⟩

end Translator

end Conformance
