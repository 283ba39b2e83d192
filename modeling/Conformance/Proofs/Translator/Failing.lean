import Conformance.Proofs.Directive.Calls
import Conformance.Proofs.Translator.Statements

/-!
# Assertions that are known to fail

A line holds plain code, then an assertion, then the mark of a failing statement.  Every stage of
the embedded translation is followed along such a line.  Marks are resolved when the assertion is
code already, so the mark is taken by the first statement of the line that begins with the right
word, whoever wrote it.  The main statement is that the assertion is known to fail exactly if no
statement of the plain code begins with such a word, and which statement is renamed otherwise.
-/

namespace Conformance

open scoped Text

variable {tolerance : Nat}

namespace Body

variable {lead text : List Char} {directive : Directive}

/-! ## A line with a marked assertion -/

/-- A body without calls at boundaries is its own expansion. -/
theorem expand_of_not_infix (absent : ¬ Text.chars "@nonfinite " <:+: text) :
    expand text = .ok text := by
  have plain : pieces .expansion text = text.map .plain := by
    induction text with
    | nil => rw [pieces]; rfl
    | cons character text inductionHypothesis =>
        rw [List.infix_cons_iff, not_or] at absent
        have none? : Directive.read? .expansion (character :: text) = none := by
          rw [Directive.read?, Text.after?_eq_none_iff.2 absent.1]
          rfl
        rw [pieces_of_read?_eq_none none?, inductionHypothesis absent.2, List.map_cons]
  have kept : ∀ characters : List Char, (characters.map Piece.plain).mapM Piece.expand =
      .ok (characters.map fun character => [character]) := by
    intro characters
    induction characters with
    | nil => rfl
    | cons character characters inductionHypothesis =>
        rw [List.map_cons, List.mapM_cons, inductionHypothesis]
        rfl
  rw [expand, plain, kept]
  simp [bind, Except.bind, pure, Except.pure, ← List.flatMap_def]

/-- Plain code, an assertion and the mark of a failing statement. -/
def markedLine (lead : List Char) (directive : Directive) : List Char :=
  lead ++ directive.source ++ " @moz-todo"

theorem exists_source_eq_assert
    (isCall : directive.isCall = true)
    (unmarked : ∀ operand ∈ directive.operands, '@' ∉ operand) :
    ∃ assertion : List Char, directive.source = "@assert " ++ assertion ∧ '@' ∉ assertion := by
  cases directive with
  | pixel coordinates color allowed =>
      refine ⟨_, Directive.source_pixel coordinates color allowed, ?_⟩
      cases allowed <;> simp only [Directive.operands, List.forall_mem_cons] at unmarked <;>
        simp [Directive.colorSource, Text.chars_eq_toList, unmarked]
  | compare left comparison right =>
      simp only [Directive.operands, List.forall_mem_cons] at unmarked
      refine ⟨left ++ comparison.spaced ++ right ++ ";", by simp [Directive.source], ?_⟩
      simp [Text.chars_eq_toList, Directive.unmarked_spaced, unmarked]
  | truthy expression =>
      simp only [Directive.operands, List.forall_mem_cons] at unmarked
      refine ⟨expression ++ ";", by simp [Directive.source], ?_⟩
      simp [Text.chars_eq_toList, unmarked]
  | _ => cases isCall

/-- The line holds no call at boundaries. -/
theorem expand_markedLine
    (isCall : directive.isCall = true)
    (unmarked : ∀ operand ∈ directive.operands, '@' ∉ operand)
    (unmarkedLead : '@' ∉ lead) :
    expand (markedLine lead directive) = .ok (markedLine lead directive) := by
  obtain ⟨assertion, source_eq, unmarkedAssertion⟩ := exists_source_eq_assert isCall unmarked
  have between : '@' ∉ Text.chars "assert " ++ assertion ++ " " := by
    simp [Text.chars_eq_toList, unmarkedAssertion]
  have line : markedLine lead directive =
      lead ++ ('@' :: (Text.chars "assert " ++ assertion ++ " " ++ "@moz-todo")) := by
    simp [markedLine, source_eq, Text.chars_eq_toList]
  have call : Text.chars "@nonfinite " = '@' :: Text.chars "nonfinite " := by
    simp [Text.chars_eq_toList]
  refine expand_of_not_infix ?_
  rw [line, call, Text.infix_append_iff_of_not_mem unmarkedLead, List.infix_cons_iff, not_or,
    Text.infix_append_iff_of_not_mem between]
  constructor
  · simp [Text.chars_eq_toList]
  · simp [Text.chars_eq_toList, List.infix_cons_iff]

theorem render_markedLine
    (isCall : directive.isCall = true)
    (isRead : Directive.read? .directive directive.source = some (directive, []))
    (unmarkedLead : '@' ∉ lead) :
    render .embedded tolerance (markedLine lead directive) =
      lead ++ directive.embedded tolerance ++ " @moz-todo" := by
  have noSemicolon : ';' ∉ Text.chars " @moz-todo" := by simp [Text.chars_eq_toList]
  have noBreak : '\n' ∉ Text.chars " @moz-todo" := by simp [Text.chars_eq_toList]
  have assertion := Directive.read?_source_append isRead noSemicolon noBreak
  have mark : Directive.read? .directive "@moz-todo" = some (.todo, []) := by
    simp only [Text.chars_eq_toList]
    decide +kernel
  have spaced : pieces .directive " @moz-todo" = [.plain ' ', .active .todo] := by
    have parts : Text.chars " @moz-todo" = [' '] ++ "@moz-todo" := by simp [Text.chars_eq_toList]
    rw [parts, pieces_append_of_not_mem (by decide), pieces_of_read?_eq_some mark, pieces]
    rfl
  have pieces_eq : pieces .directive (markedLine lead directive) =
      (lead.map .plain ++ [.active directive]) ++ [.plain ' ', .active .todo] := by
    rw [markedLine, List.append_assoc, pieces_append_of_not_mem unmarkedLead,
      pieces_of_read?_eq_some assertion, spaced]
    simp
  have noTodo : Piece.active .todo ∉ lead.map .plain ++ [.active directive] := by
    have other : Directive.todo ≠ directive := by
      rintro rfl
      cases isCall
    simp [other]
  have code_eq : (lead.map Piece.plain).flatMap (Piece.code .embedded tolerance) = lead := by
    simp [List.flatMap_map, Piece.code]
  -- the mark takes the space in front of it along, and its code begins with a space again
  rw [render, pieces_eq, List.foldl_append, foldl_write_eq noTodo, List.flatMap_append, code_eq]
  simp [Piece.write, Piece.code, Dialect.render, Directive.embedded, withoutSpace,
    Directive.absorbsLeadingSpace]

/-! ## Resolving the mark of the line -/

variable {keyword renamed code operands : List Char}

/-- The keywords of statements that can be marked, with what stands for them in a statement that is
known to fail. -/
def renamings : List (List Char × List Char) :=
  [("ok", "todo"), ("is", "todo_is")]

/-- Marks are resolved for every keyword. -/
def resolveMarks (code : List Char) : List Char :=
  renamings.foldl (fun code (keyword, renamed) => renameMarked keyword renamed code) code

theorem isKeyword_of_mem_renamings (member : (keyword, renamed) ∈ renamings) :
    IsKeyword keyword := by
  simp only [renamings, List.mem_cons, Prod.mk.injEq, List.not_mem_nil, or_false] at member
  have notBlank : ∀ character ∈ ['o', 'k', 'i', 's'], Text.isBlank character = false := by
    simp only [List.forall_mem_cons, List.not_mem_nil, false_imp_iff, implies_true, and_true]
    decide
  rcases member with ⟨rfl, -⟩ | ⟨rfl, -⟩
  all_goals
    refine ⟨by simp [Text.chars_eq_toList], fun character member => notBlank character ?_,
      by simp [Text.chars_eq_toList]⟩
    revert member
    simp +contextual [Text.chars_eq_toList, or_imp]

/-- Plain code on one line, which ends between two statements: it may be empty, or end in a semicolon
and spaces. -/
structure IsLead (lead : List Char) : Prop where
  unmarked : '@' ∉ lead
  noBreak : '\n' ∉ lead
  between : EndsBetween lead

theorem isLead_append_semicolon
    (unmarked : '@' ∉ code)
    (noBreak : '\n' ∉ code)
    (spaces : Nat) :
    IsLead (code ++ ';' :: List.replicate spaces ' ') where
  unmarked := by simp [unmarked]
  noBreak := by simp [noBreak]
  between := by
    have isBlank : Text.isBlank ' ' = true := by decide
    refine endsBetween_append_semicolon code fun character member => ?_
    rwa [List.eq_of_mem_replicate member]

/-- No statement of the code takes the mark behind the directive. -/
def LeavesMark (directive : Directive) (lead : List Char) : Prop :=
  ∀ keyword ∈ directive.keywords, ¬ HoldsStatement keyword lead

instance (directive : Directive) (lead : List Char) : Decidable (LeavesMark directive lead) :=
  inferInstanceAs (Decidable (∀ keyword ∈ directive.keywords, _))

/-- The first statement that begins with the keyword takes the mark behind the code. -/
inductive TakesMark (keyword renamed code : List Char) : (lead result : List Char) → Prop
  | first
      {front back : List Char}
      (between : EndsBetween front)
      (absent : ¬ HoldsStatement keyword front) :
      TakesMark keyword renamed code (front ++ keyword ++ back) (front ++ renamed ++ back ++ code)

/-- Without another statement in front that begins with the keyword, the statement at the mark is
renamed. -/
theorem renameMarked_line
    (isKeyword : IsKeyword keyword)
    (isLead : IsLead lead)
    (absent : ¬ HoldsStatement keyword lead)
    (noBreak : '\n' ∉ operands) :
    renameMarked keyword renamed (lead ++ (keyword ++ operands ++ ";") ++ " @moz-todo") =
      lead ++ (renamed ++ operands ++ ";") := by
  have first : renameMarked keyword renamed (lead ++ (keyword ++ operands ++ todoMark)) =
      lead ++ (renamed ++ operands ++ ";") :=
    renameMarked_first isKeyword isLead.between isLead.noBreak absent noBreak
  rw [todoMark_eq] at first
  simpa using first

/-- Another statement in front that begins with the keyword is renamed instead. -/
theorem takesMark_renameMarked
    (isKeyword : IsKeyword keyword)
    (isLead : IsLead lead)
    (holds : HoldsStatement keyword lead)
    (noBreak : '\n' ∉ code)
    (renamed : List Char) :
    TakesMark keyword renamed (code ++ ";") lead
      (renameMarked keyword renamed (lead ++ (code ++ ";") ++ " @moz-todo")) := by
  obtain ⟨front, back, rfl, between, absent⟩ :=
    exists_first_statement isKeyword isLead.between holds
  have noBreaks := isLead.noBreak
  simp only [List.mem_append, not_or] at noBreaks
  -- the operands of that statement reach over the code behind it, up to the mark
  have oneLine : '\n' ∉ back ++ code := by simp [noBreaks.2, noBreak]
  have first : renameMarked keyword renamed (front ++ (keyword ++ (back ++ code) ++ todoMark)) =
      front ++ (renamed ++ (back ++ code) ++ ";") :=
    renameMarked_first isKeyword between noBreaks.1.1 absent oneLine
  have moved : renameMarked keyword renamed
      (front ++ keyword ++ back ++ (code ++ ";") ++ " @moz-todo") =
        front ++ renamed ++ back ++ (code ++ ";") := by
    rw [todoMark_eq] at first
    simpa using first
  exact moved ▸ .first between absent

/-- A single statement that begins with another word is left as it is. -/
theorem renameMarked_other
    (isKeyword : IsKeyword keyword)
    (isLead : IsLead lead)
    (absent : ¬ HoldsStatement keyword lead)
    (noBreak : '\n' ∉ code)
    (single : ';' ∉ code)
    (other : ¬ keyword <+: code.dropWhile Text.isBlank)
    (renamed : List Char) :
    renameMarked keyword renamed (lead ++ (code ++ ";") ++ " @moz-todo") =
      lead ++ (code ++ ";") ++ " @moz-todo" := by
  have parts : lead ++ (code ++ ";") ++ " @moz-todo" = lead ++ (code ++ ';' :: " @moz-todo") := by
    simp [Text.chars_eq_toList]
  rw [parts, renameMarked_append isKeyword isLead.between isLead.noBreak absent,
    renameMarked_append_cons isKeyword noBreak single other, renameMarked_mark]

theorem unmarked_of_takesMark
    {moved : List Char}
    (member : (keyword, renamed) ∈ renamings)
    (takes : TakesMark keyword renamed code lead moved)
    (unmarkedLead : '@' ∉ lead)
    (unmarkedCode : '@' ∉ code) :
    '@' ∉ moved := by
  have unmarkedRenamed : '@' ∉ renamed := by
    simp only [renamings, List.mem_cons, Prod.mk.injEq, List.not_mem_nil, or_false] at member
    rcases member with ⟨-, rfl⟩ | ⟨-, rfl⟩ <;> simp [Text.chars_eq_toList]
  obtain ⟨between, absent⟩ := takes
  simp only [List.mem_append, not_or] at unmarkedLead ⊢
  exact ⟨⟨⟨unmarkedLead.1.1, unmarkedRenamed⟩, unmarkedLead.2⟩, unmarkedCode⟩

/-- A statement of the code has another beginning if it takes the mark. -/
theorem ne_of_takesMark
    {moved : List Char}
    (member : (keyword, renamed) ∈ renamings)
    (takes : TakesMark keyword renamed code lead moved)
    (behind : List Char) :
    moved ≠ lead ++ behind := by
  obtain ⟨between, absent⟩ := takes
  simp only [renamings, List.mem_cons, Prod.mk.injEq, List.not_mem_nil, or_false] at member
  rcases member with ⟨rfl, rfl⟩ | ⟨rfl, rfl⟩ <;> simp [Text.chars_eq_toList]

/-- Where a statement that begins with `ok` takes the mark, none is left for other statements. -/
theorem resolveMarks_eq_of_unmarked (unmarked : '@' ∉ renameMarked "ok" "todo" code) :
    resolveMarks code = renameMarked "ok" "todo" code := by
  have noOther := renameMarked_of_unmarked "is" "todo_is" (mt HoldsTodo.mem unmarked)
  simpa [resolveMarks, renamings] using noOther

theorem resolveMarks_eq_of_untaken (untaken : renameMarked "ok" "todo" code = code) :
    resolveMarks code = renameMarked "is" "todo_is" code := by
  simp [resolveMarks, renamings, untaken]

theorem ok_mem_renamings : (Text.chars "ok", Text.chars "todo") ∈ renamings :=
  List.mem_cons_self

theorem is_mem_renamings : (Text.chars "is", Text.chars "todo_is") ∈ renamings :=
  List.mem_cons_of_mem _ List.mem_cons_self

/-- A statement in front that begins with `ok` takes the mark, whatever the code behind it is. -/
theorem takesMark_ok
    (isLead : IsLead lead)
    (holds : HoldsStatement "ok" lead)
    (noBreak : '\n' ∉ code)
    (unmarked : '@' ∉ code ++ ";") :
    TakesMark "ok" "todo" (code ++ ";") lead
      (resolveMarks (lead ++ (code ++ ";") ++ " @moz-todo")) := by
  have takes := takesMark_renameMarked (isKeyword_of_mem_renamings ok_mem_renamings) isLead holds
    noBreak "todo"
  rwa [resolveMarks_eq_of_unmarked
    (unmarked_of_takesMark ok_mem_renamings takes isLead.unmarked unmarked)]

/-- The mark behind a check belongs to the first statement that begins with `ok`. -/
theorem resolveMarks_check
    (isLead : IsLead lead)
    (markable : Directive.IsMarkable "ok" "todo" operands tolerance directive)
    (unmarked : '@' ∉ directive.embedded tolerance) :
    (¬ HoldsStatement "ok" lead →
      resolveMarks (lead ++ directive.embedded tolerance ++ " @moz-todo") =
        lead ++ directive.embeddedFailing tolerance) ∧
    (HoldsStatement "ok" lead →
      TakesMark "ok" "todo" (directive.embedded tolerance) lead
        (resolveMarks (lead ++ directive.embedded tolerance ++ " @moz-todo"))) := by
  have isKeyword := isKeyword_of_mem_renamings ok_mem_renamings
  have noBreak : '\n' ∉ Text.chars "ok" ++ operands := by
    simp [Text.chars_eq_toList, markable.noBreak]
  rw [markable.code] at unmarked ⊢
  rw [markable.failing]
  refine ⟨fun absent => ?_, fun holds => takesMark_ok isLead holds noBreak unmarked⟩
  have renamed_eq : renameMarked "ok" "todo" (lead ++ ("ok" ++ operands ++ ";") ++ " @moz-todo") =
      lead ++ ("todo" ++ operands ++ ";") :=
    renameMarked_line isKeyword isLead absent markable.noBreak
  rw [resolveMarks_eq_of_unmarked, renamed_eq]
  rw [renamed_eq]
  have unmarkedLead := isLead.unmarked
  simp only [List.mem_append, not_or] at unmarked ⊢
  exact ⟨unmarkedLead, ⟨by simp [Text.chars_eq_toList], unmarked.1.2⟩, unmarked.2⟩

/-- The mark behind a pixel belongs to the first statement that begins with `ok`, or, if there is
none, to the first that begins with `is`. -/
theorem resolveMarks_pixel
    (isLead : IsLead lead)
    (markable : Directive.IsMarkable "is" "todo_is" operands tolerance directive)
    (single : ';' ∉ operands)
    (unmarked : '@' ∉ directive.embedded tolerance) :
    (¬ HoldsStatement "ok" lead → ¬ HoldsStatement "is" lead →
      resolveMarks (lead ++ directive.embedded tolerance ++ " @moz-todo") =
        lead ++ directive.embeddedFailing tolerance) ∧
    (HoldsStatement "ok" lead →
      TakesMark "ok" "todo" (directive.embedded tolerance) lead
        (resolveMarks (lead ++ directive.embedded tolerance ++ " @moz-todo"))) ∧
    (¬ HoldsStatement "ok" lead → HoldsStatement "is" lead →
      TakesMark "is" "todo_is" (directive.embedded tolerance) lead
        (resolveMarks (lead ++ directive.embedded tolerance ++ " @moz-todo"))) := by
  have isKeywordIs := isKeyword_of_mem_renamings is_mem_renamings
  have noBreak : '\n' ∉ Text.chars "is" ++ operands := by
    simp [Text.chars_eq_toList, markable.noBreak]
  have oneStatement : ';' ∉ Text.chars "is" ++ operands := by
    simp [Text.chars_eq_toList, single]
  have notBlank : Text.isBlank 'i' = false := by decide
  have other : ¬ Text.chars "ok" <+: (Text.chars "is" ++ operands).dropWhile Text.isBlank := by
    simp [Text.chars_eq_toList, notBlank]
  rw [markable.code] at unmarked ⊢
  rw [markable.failing]
  -- marks are looked for behind `ok` first, which leaves a pixel as it is
  have noFirst : ¬ HoldsStatement "ok" lead → _ := fun absent =>
    renameMarked_other (isKeyword_of_mem_renamings ok_mem_renamings) isLead absent noBreak
      oneStatement other "todo"
  refine ⟨fun absentOk absentIs => ?_, fun holds => takesMark_ok isLead holds noBreak unmarked,
    fun absentOk holds => ?_⟩
  · rw [resolveMarks_eq_of_untaken (noFirst absentOk)]
    exact renameMarked_line isKeywordIs isLead absentIs markable.noBreak
  · rw [resolveMarks_eq_of_untaken (noFirst absentOk)]
    exact takesMark_renameMarked isKeywordIs isLead holds noBreak "todo_is"

theorem leavesMark_iff_of_isPixel (isPixel : directive.IsPixel) :
    LeavesMark directive lead ↔ ¬ HoldsStatement "ok" lead ∧ ¬ HoldsStatement "is" lead := by
  cases directive with
  | pixel coordinates color allowed => simp [LeavesMark, Directive.keywords]
  | _ => exact isPixel.elim

theorem leavesMark_iff_of_not_isPixel
    (notPixel : ¬ directive.IsPixel)
    (isRead : Directive.read? .directive directive.source = some (directive, [])) :
    LeavesMark directive lead ↔ ¬ HoldsStatement "ok" lead := by
  cases directive with
  | pixel coordinates color allowed =>
      exact absurd (Directive.isPixel_of_read?_eq_some isRead) notPixel
  | _ => simp [LeavesMark, Directive.keywords]

/-- The mark of a line says that the assertion in front of it is known to fail, unless a statement
in front of the assertion takes it. -/
theorem resolveMarks_markedLine
    (isLead : IsLead lead)
    (isCall : directive.isCall = true)
    (isRead : Directive.read? .directive directive.source = some (directive, []))
    (unmarked : '@' ∉ directive.embedded tolerance) :
    (LeavesMark directive lead →
      resolveMarks (render .embedded tolerance (markedLine lead directive)) =
        lead ++ directive.embeddedFailing tolerance) ∧
    (¬ LeavesMark directive lead →
      ∃ keyword renamed, (keyword, renamed) ∈ renamings ∧
        TakesMark keyword renamed (directive.embedded tolerance) lead
          (resolveMarks (render .embedded tolerance (markedLine lead directive)))) := by
  rw [render_markedLine isCall isRead isLead.unmarked]
  by_cases isPixel : directive.IsPixel
  · obtain ⟨operands, markable, single⟩ := Directive.exists_isMarkable_of_isPixel isPixel tolerance
    obtain ⟨clear, takesOk, takesIs⟩ := resolveMarks_pixel isLead markable single unmarked
    rw [leavesMark_iff_of_isPixel isPixel]
    refine ⟨fun leaves => clear leaves.1 leaves.2, fun takes => ?_⟩
    by_cases holdsOk : HoldsStatement "ok" lead
    · exact ⟨_, _, ok_mem_renamings, takesOk holdsOk⟩
    · have holdsIs : HoldsStatement "is" lead := by
        by_contra absent
        exact takes ⟨holdsOk, absent⟩
      exact ⟨_, _, is_mem_renamings, takesIs holdsOk holdsIs⟩
  · obtain ⟨operands, markable⟩ :=
      Directive.exists_isMarkable_of_not_isPixel isPixel isCall isRead tolerance
    obtain ⟨clear, takes⟩ := resolveMarks_check isLead markable unmarked
    rw [leavesMark_iff_of_not_isPixel isPixel isRead]
    exact ⟨clear, fun holds => ⟨_, _, ok_mem_renamings, takes (not_not.1 holds)⟩⟩

end Body

namespace Translator

variable {translator : Translator} {lead : List Char} {directive : Directive}

/-- A line that is its own expansion and shows no image is translated into its code with the marks
resolved. -/
theorem translate_of_resolveMarks
    {line code : List Char}
    (isExpanded : Body.expand line = .ok line)
    (isResolved :
      Body.resolveMarks (Body.render .embedded translator.pixelTolerance line) = code)
    (unmarked : '@' ∉ code)
    (noImage : ¬ translator.sharedImageDirectory.toList <:+: code) :
    translator.translate .embedded (String.ofList line) = .ok (String.ofList code) := by
  have rendered : translator.render .embedded line = code := by
    rw [render, embed, ← Text.replace_of_not_infix noImage, ← isResolved]
    rfl
  rw [translate_eq_ok_iff, String.toList_ofList, String.toList_ofList, translateText_eq_ok_iff]
  exact ⟨line, isExpanded, by rwa [rendered], rendered.symm⟩

/-- The mark behind an assertion renames its call, and leaves the code in front of it as it is,
exactly if no statement of that code begins with a word that takes the mark.  Otherwise the first
statement that does is renamed, and the assertion is left as it is.  What the operands hold does not
matter. -/
theorem translate_markedLine
    (isLead : Body.IsLead lead)
    (isCall : directive.isCall = true)
    (isRead : Directive.read? .directive directive.source = some (directive, []))
    (unmarked : ∀ operand ∈ directive.operands, '@' ∉ operand) :
    (Body.LeavesMark directive lead →
      ¬ translator.sharedImageDirectory.toList <:+:
        lead ++ directive.embeddedFailing translator.pixelTolerance →
      translator.translate .embedded (String.ofList (Body.markedLine lead directive)) =
        .ok (String.ofList (lead ++ directive.embeddedFailing translator.pixelTolerance))) ∧
    (¬ Body.LeavesMark directive lead →
      ∃ keyword renamed moved, (keyword, renamed) ∈ Body.renamings ∧
        Body.TakesMark keyword renamed (directive.embedded translator.pixelTolerance) lead moved ∧
        moved ≠ lead ++ directive.embeddedFailing translator.pixelTolerance ∧
        (¬ translator.sharedImageDirectory.toList <:+: moved →
          translator.translate .embedded (String.ofList (Body.markedLine lead directive)) =
            .ok (String.ofList moved))) := by
  have marked_iff : '@' ∈ directive.embedded translator.pixelTolerance ↔
      ∃ operand ∈ directive.operands, '@' ∈ operand :=
    Directive.mem_render_iff (Directive.isRewritten_of_isCall isCall) .embedded _
  have unmarkedCode : '@' ∉ directive.embedded translator.pixelTolerance := by
    rw [marked_iff]
    simpa using unmarked
  have isExpanded := Body.expand_markedLine isCall unmarked isLead.unmarked
  obtain ⟨clear, taken⟩ := Body.resolveMarks_markedLine isLead isCall isRead unmarkedCode
  constructor
  · intro leaves noImage
    refine translate_of_resolveMarks isExpanded (clear leaves) ?_ noImage
    rw [List.mem_append, not_or]
    exact ⟨isLead.unmarked, Directive.unmarked_embeddedFailing unmarkedCode⟩
  · intro takes
    obtain ⟨keyword, renamed, member, takesMark⟩ := taken takes
    exact ⟨keyword, renamed, _, member, takesMark, Body.ne_of_takesMark member takesMark _,
      translate_of_resolveMarks isExpanded rfl
        (Body.unmarked_of_takesMark member takesMark isLead.unmarked unmarkedCode)⟩

/-- The mark passes over a semicolon and a keyword in an operand. -/
theorem translate_markedLine_comparison :
    Body.IsLead ("f()".toList ++ ';' :: [' ']) ∧
      (Directive.compare "a".toList .equal "'b; ok'".toList).isCall = true ∧
      Directive.read? .directive "@assert a == 'b; ok';".toList =
        some (.compare "a".toList .equal "'b; ok'".toList, []) ∧
      Body.LeavesMark (.compare "a".toList .equal "'b; ok'".toList)
        ("f()".toList ++ ';' :: [' ']) ∧
      ({} : Translator).translate .embedded "f(); @assert a == 'b; ok'; @moz-todo" =
        .ok "f(); todo(a == 'b; ok', \"a == 'b; ok'\");" := by
  have isLead : Body.IsLead ("f()".toList ++ ';' :: [' ']) :=
    Body.isLead_append_semicolon (by decide) (by decide) 1
  have isRead : Directive.read? .directive
      (Directive.compare "a".toList .equal "'b; ok'".toList).source =
        some (.compare "a".toList .equal "'b; ok'".toList, []) := by decide +kernel
  have leaves : Body.LeavesMark (.compare "a".toList .equal "'b; ok'".toList)
      ("f()".toList ++ ';' :: [' ']) := by decide +kernel
  have source_eq : (Directive.compare "a".toList .equal "'b; ok'".toList).source =
      "@assert a == 'b; ok';".toList := by decide +kernel
  have line_eq : Body.markedLine ("f()".toList ++ ';' :: [' '])
      (.compare "a".toList .equal "'b; ok'".toList) =
        "f(); @assert a == 'b; ok'; @moz-todo".toList := by decide +kernel
  have code_eq : "f()".toList ++ ';' :: [' '] ++
      (Directive.compare "a".toList .equal "'b; ok'".toList).embeddedFailing 2 =
        "f(); todo(a == 'b; ok', \"a == 'b; ok'\");".toList := by decide +kernel
  have noImage : ¬ ({} : Translator).sharedImageDirectory.toList <:+:
      "f()".toList ++ ';' :: [' '] ++
        (Directive.compare "a".toList .equal "'b; ok'".toList).embeddedFailing 2 := by
    rw [code_eq]
    decide +kernel
  have translated := (translate_markedLine isLead rfl isRead (by decide)).1 leaves noImage
  rw [line_eq, code_eq, String.ofList_toList, String.ofList_toList] at translated
  exact ⟨isLead, rfl, source_eq ▸ isRead, leaves, translated⟩

/-- A statement that the author wrote is marked as failing in place of the assertion. -/
theorem translate_markedLine_moved :
    Body.IsLead ("ok(x)".toList ++ ';' :: [' ']) ∧
      (Directive.truthy "y".toList).isCall = true ∧
      Directive.read? .directive (Directive.truthy "y".toList).source =
        some (.truthy "y".toList, []) ∧
      (∀ operand ∈ (Directive.truthy "y".toList).operands, '@' ∉ operand) ∧
      (∀ code ∈ ["ok(x); @assert y; @moz-todo", "ok(x); todo(y, \"y\");", "todo(x); ok(y, \"y\");"],
        ¬ ({} : Translator).sharedImageDirectory.toList <:+: code.toList) ∧
      String.ofList (Body.markedLine ("ok(x)".toList ++ ';' :: [' ']) (.truthy "y".toList)) =
        "ok(x); @assert y; @moz-todo" ∧
      String.ofList ("ok(x)".toList ++ ';' :: [' '] ++
        (Directive.truthy "y".toList).embeddedFailing 2) = "ok(x); todo(y, \"y\");" ∧
      ({} : Translator).translate .embedded "ok(x); @assert y; @moz-todo" =
        .ok "todo(x); ok(y, \"y\");" ∧
      ({} : Translator).translate .embedded "ok(x); @assert y; @moz-todo" ≠
        .ok "ok(x); todo(y, \"y\");" := by
  have isLead : Body.IsLead ("ok(x)".toList ++ ';' :: [' ']) :=
    Body.isLead_append_semicolon (by decide) (by decide) 1
  have translated : ({} : Translator).translate .embedded "ok(x); @assert y; @moz-todo" =
      .ok "todo(x); ok(y, \"y\");" := by decide +kernel
  refine ⟨isLead, rfl, by decide +kernel, by decide, by decide +kernel, by decide +kernel,
    by decide +kernel, translated, ?_⟩
  rw [translated]
  decide

end Translator

end Conformance
