import Conformance.Directive.Reader
import Conformance.Dialect
import Conformance.Proofs.Directive.Marks

/-!
# The operands of a directive in its code

Both dialects write the operands of a directive between literal code, as they are or escaped.  The
code holds a mark, `@`, exactly if an operand does, whatever the dialect is, and the mark of a
failing statement, `@moz-todo`, occurs in it only if it occurs in the directive as it is written.
Embedded code can still complete such a mark behind the beginning of one; only the code of an
assertion does.
-/

namespace Conformance

open scoped Text

namespace Directive

variable {tolerance : Nat}

/-- What is written into a directive. -/
def operands : Directive → List (List Char)
  | .nonfinite callable arguments tail => [callable, arguments, tail]
  | .pixel coordinates color (.explicit amount) => [coordinates, color, amount]
  | .pixel coordinates color _ => [coordinates, color]
  | .throwsTyped error statement => [error, statement]
  | .throws statement => [statement]
  | .compare left _ right => [left, right]
  | .truthy expression => [expression]
  | _ => []

/-! ## Text around operands -/

theorem apart_quoted (text : List Char) :
    Portion.Apart text [⟨.literal, "\""⟩, ⟨.operand, Message.escape text⟩, ⟨.literal, "\""⟩] :=
  .fixed rfl (.escaped List.infix_rfl rfl .nil)

theorem mem_quoted_iff (text : List Char) : '@' ∈ quoted text ↔ '@' ∈ text := by
  refine (Portion.mem_code_iff (apart_quoted text)).trans ?_
  simp [Portion.operands, Message.mem_escape_iff]

theorem holdsTodo_of_quoted {text : List Char} (holds : HoldsTodo (quoted text)) :
    HoldsTodo text :=
  Portion.holdsTodo_of_code (apart_quoted text) holds

/-- An operand stands in a message of its own. -/
theorem apart_quoted_cons
    {source text characters : List Char}
    {portions : List Portion}
    (inside : text <:+: source)
    (separate : Portion.separates characters = true)
    (rest : Portion.Apart source portions) :
    Portion.Apart source
      (⟨.operand, quoted text⟩ :: ⟨.literal, Text.chars (String.ofList characters)⟩ ::
        portions) :=
  .operand (fun holds => (holdsTodo_of_quoted holds).mono inside)
    (Portion.separates_chars separate) rest

/-- A tolerance holds a mark only if the directive names it. -/
theorem mem_amount_iff (allowed : Tolerance) :
    '@' ∈ allowed.amount tolerance ↔ ∃ amount, allowed = .explicit amount ∧ '@' ∈ amount := by
  cases allowed with
  | exact => simp [Tolerance.amount, Text.chars_eq_toList]
  | configured =>
      have noDigit : '@' ∉ Nat.toDigits 10 tolerance := fun member =>
        absurd (Nat.isDigit_of_mem_toDigits (by decide) (by decide) member) (by decide)
      simp [Tolerance.amount, noDigit]
  | explicit amount => simp [Tolerance.amount]

/-! ## The code of a directive -/

/-- Portions that spell the code of a directive. -/
structure Spells (portions : List Portion) (directive : Directive) : Prop where
  /-- Literal code keeps the operands apart, which come from the directive as it is written. -/
  apart : Portion.Apart directive.source portions
  /-- The portions hold a mark if what is written into the directive does. -/
  marked_iff : (∃ operand ∈ Portion.operands portions, '@' ∈ operand) ↔
    ∃ operand ∈ directive.operands, '@' ∈ operand

theorem exists_spells_throws (dialect : Dialect) (tolerance : Nat) (statement : List Char) :
    ∃ portions, dialect.render tolerance (.throws statement) = Portion.code portions ∧
      Spells portions (.throws statement) := by
  have inside : statement <:+: (throws statement).source := ⟨"@assert throws ", ";", rfl⟩
  cases dialect with
  | standalone =>
      refine ⟨[⟨.literal, _⟩, ⟨.operand, statement⟩, ⟨.literal, _⟩, ⟨.literal, _⟩,
        ⟨.operand, Message.escape statement⟩, ⟨.literal, _⟩], rfl, ?_, ?_⟩
      · exact .fixed rfl (.written inside rfl (.fixed rfl (.escaped inside rfl .nil)))
      · simp [Portion.operands, operands, Message.mem_escape_iff]
  | embedded =>
      refine ⟨[⟨.literal, _⟩, ⟨.operand, statement⟩, ⟨.literal, _⟩, ⟨.literal, _⟩], rfl, ?_, ?_⟩
      · exact .fixed rfl (.written inside rfl (.fixed rfl .nil))
      · simp [Portion.operands, operands]

theorem exists_spells_throwsTyped
    (dialect : Dialect)
    (tolerance : Nat)
    (error statement : List Char) :
    ∃ portions, dialect.render tolerance (.throwsTyped error statement) = Portion.code portions ∧
      Spells portions (.throwsTyped error statement) := by
  have statementInside : statement <:+: (throwsTyped error statement).source :=
    ⟨"@assert throws " ++ error ++ " ", ";", rfl⟩
  have errorInside : error <:+: (throwsTyped error statement).source :=
    ⟨"@assert throws ", " " ++ statement ++ ";", by simp [source]⟩
  cases dialect with
  | standalone =>
      refine ⟨[⟨.literal, _⟩, ⟨.operand, statement⟩, ⟨.literal, _⟩, ⟨.operand, error⟩,
        ⟨.literal, _⟩, ⟨.operand, error⟩, ⟨.literal, _⟩, ⟨.literal, _⟩, ⟨.operand, error⟩,
        ⟨.literal, _⟩, ⟨.operand, Message.escape statement⟩, ⟨.literal, _⟩], rfl, ?_, ?_⟩
      · exact .fixed rfl (.written statementInside rfl (.written errorInside rfl
          (.written errorInside rfl (.fixed rfl (.written errorInside rfl
            (.escaped statementInside rfl .nil))))))
      · simp only [Portion.operands, operands, List.mem_cons, List.not_mem_nil, or_false]
        grind [Message.mem_escape_iff]
  | embedded =>
      refine ⟨[⟨.literal, _⟩, ⟨.operand, statement⟩, ⟨.literal, _⟩, ⟨.operand, error⟩,
        ⟨.literal, _⟩, ⟨.operand, error⟩, ⟨.literal, _⟩], rfl, ?_, ?_⟩
      · exact .fixed rfl (.written statementInside rfl (.written errorInside rfl
          (.written errorInside rfl .nil)))
      · simp only [Portion.operands, operands, List.mem_cons, List.not_mem_nil, or_false]
        grind

/-! ### Pixels -/

variable {coordinates color : List Char}

theorem coordinates_infix_source (allowed : Tolerance) :
    coordinates <:+: (pixel coordinates color allowed).source := by
  cases allowed with
  | exact => exact ⟨"@assert pixel ", " == " ++ color ++ ";", by simp [source]⟩
  | configured => exact ⟨"@assert pixel ", " ==~ " ++ color ++ ";", by simp [source]⟩
  | explicit amount =>
      exact ⟨"@assert pixel ", " ==~ " ++ color ++ " +/- " ++ amount ++ ";", by simp [source]⟩

theorem color_infix_source (allowed : Tolerance) :
    color <:+: (pixel coordinates color allowed).source := by
  cases allowed with
  | exact => exact ⟨"@assert pixel " ++ coordinates ++ " == ", ";", by simp [source]⟩
  | configured => exact ⟨"@assert pixel " ++ coordinates ++ " ==~ ", ";", by simp [source]⟩
  | explicit amount =>
      exact ⟨"@assert pixel " ++ coordinates ++ " ==~ ", " +/- " ++ amount ++ ";",
        by simp [source]⟩

theorem apart_pixelArguments (coordinates color : List Char) (allowed : Tolerance) :
    Portion.Apart (pixel coordinates color allowed).source
      [⟨.operand, coordinates⟩, ⟨.literal, ", "⟩, ⟨.operand, color⟩, ⟨.literal, ", \""⟩,
        ⟨.operand, coordinates⟩, ⟨.literal, "\", \""⟩, ⟨.operand, color⟩, ⟨.literal, "\""⟩] :=
  .written (coordinates_infix_source allowed) rfl (.written (color_infix_source allowed) rfl
    (.written (coordinates_infix_source allowed) rfl (.written (color_infix_source allowed) rfl
      .nil)))

theorem mem_pixelArguments_iff (coordinates color : List Char) :
    '@' ∈ pixelArguments coordinates color ↔ '@' ∈ coordinates ∨ '@' ∈ color := by
  refine (Portion.mem_code_iff (apart_pixelArguments coordinates color .exact)).trans ?_
  simp only [Portion.operands, List.mem_cons, List.not_mem_nil, or_false]
  grind

theorem holdsTodo_source_of_pixelArguments
    (allowed : Tolerance)
    (holds : HoldsTodo (pixelArguments coordinates color)) :
    HoldsTodo (pixel coordinates color allowed).source :=
  Portion.holdsTodo_of_code (apart_pixelArguments coordinates color allowed) holds

theorem holdsTodo_source_of_amount
    {allowed : Tolerance}
    (holds : HoldsTodo (allowed.amount tolerance)) :
    HoldsTodo (pixel coordinates color allowed).source := by
  obtain ⟨amount, rfl, -⟩ := (mem_amount_iff allowed).1 holds.mem
  exact HoldsTodo.mono holds
    ⟨"@assert pixel " ++ coordinates ++ " ==~ " ++ color ++ " +/- ", ";", by
      simp [source, Tolerance.amount]⟩

theorem exists_mem_operands_pixel_iff
    (tolerance : Nat)
    (coordinates color : List Char)
    (allowed : Tolerance) :
    (∃ operand ∈ (pixel coordinates color allowed).operands, '@' ∈ operand) ↔
      '@' ∈ pixelArguments coordinates color ∨ '@' ∈ allowed.amount tolerance := by
  rw [mem_pixelArguments_iff, mem_amount_iff]
  cases allowed <;> simp [operands, or_assoc]

/-- Code that gives a pixel and a tolerance to a check. -/
theorem spells_pixel
    {lead between closing : List Char}
    (unmarked : '@' ∉ lead)
    (separateBetween : Portion.separates between = true)
    (separateClosing : Portion.separates closing = true)
    (tolerance : Nat)
    (coordinates color : List Char)
    (allowed : Tolerance) :
    Spells [⟨.literal, lead⟩, ⟨.operand, pixelArguments coordinates color⟩, ⟨.literal, between⟩,
      ⟨.operand, allowed.amount tolerance⟩, ⟨.literal, closing⟩]
      (.pixel coordinates color allowed) where
  apart := .literal unmarked (.operand (holdsTodo_source_of_pixelArguments allowed) separateBetween
    (.operand holdsTodo_source_of_amount separateClosing .nil))
  marked_iff := by
    rw [exists_mem_operands_pixel_iff tolerance coordinates color allowed]
    simp [Portion.operands]

theorem exists_spells_pixel
    (dialect : Dialect)
    (tolerance : Nat)
    (coordinates color : List Char)
    (allowed : Tolerance) :
    ∃ portions, dialect.render tolerance (.pixel coordinates color allowed) =
        Portion.code portions ∧ Spells portions (.pixel coordinates color allowed) := by
  cases dialect with
  | embedded =>
      exact ⟨_, rfl, spells_pixel (Portion.not_mem_chars rfl) (Portion.separates_chars rfl)
        (Portion.separates_chars rfl) tolerance coordinates color allowed⟩
  | standalone =>
      cases allowed with
      | exact =>
          refine ⟨[⟨.literal, _⟩, ⟨.operand, pixelArguments coordinates color⟩, ⟨.literal, _⟩],
            rfl, ?_, ?_⟩
          · exact .fixed rfl (.operand (holdsTodo_source_of_pixelArguments .exact)
              (Portion.separates_chars rfl) .nil)
          · simp [Portion.operands, operands, mem_pixelArguments_iff]
      | configured =>
          exact ⟨_, rfl, spells_pixel (Portion.not_mem_chars rfl) (Portion.separates_chars rfl)
            (Portion.separates_chars rfl) tolerance coordinates color .configured⟩
      | explicit amount =>
          exact ⟨_, rfl, spells_pixel (Portion.not_mem_chars rfl) (Portion.separates_chars rfl)
            (Portion.separates_chars rfl) tolerance coordinates color (.explicit amount)⟩

/-! ### Expressions and comparisons -/

/-- Code that gives an expression to a check, and the expression as it is written. -/
theorem spells_check
    {directive : Directive}
    {expression lead : List Char}
    (unmarked : '@' ∉ lead)
    (inside : expression <:+: directive.source)
    (marked_iff : '@' ∈ expression ↔ ∃ operand ∈ directive.operands, '@' ∈ operand) :
    Spells [⟨.literal, lead⟩, ⟨.operand, expression⟩, ⟨.literal, ", "⟩,
      ⟨.operand, quoted expression⟩, ⟨.literal, ");"⟩] directive where
  apart := .literal unmarked (.written inside rfl (apart_quoted_cons inside rfl .nil))
  marked_iff := by
    rw [← marked_iff]
    simp [Portion.operands, mem_quoted_iff]

theorem exists_spells_truthy (dialect : Dialect) (tolerance : Nat) (expression : List Char) :
    ∃ portions, dialect.render tolerance (.truthy expression) = Portion.code portions ∧
      Spells portions (.truthy expression) := by
  have inside : expression <:+: (truthy expression).source := ⟨"@assert ", ";", rfl⟩
  cases dialect with
  | standalone =>
      exact ⟨_, rfl, spells_check (Portion.not_mem_chars rfl) inside (by simp [operands])⟩
  | embedded =>
      exact ⟨_, rfl, spells_check (Portion.not_mem_chars rfl) inside (by simp [operands])⟩

/-- An embedded comparison is the check of the whole expression, or a match of its parts. -/
theorem embeddedComparison_cases (left : List Char) (comparison : Comparison) (right : List Char) :
    (∃ subject pattern,
      embeddedComparison left comparison right = embeddedMatch subject pattern ∧
        left ++ comparison.spaced ++ right = subject ++ Comparison.matches.spaced ++ pattern) ∨
    embeddedComparison left comparison right =
      embeddedCheck (left ++ comparison.spaced ++ right) := by
  unfold embeddedComparison
  split
  · exact .inl ⟨left, right, rfl, rfl⟩
  · dsimp only
    split
    · next subject pattern found =>
        exact .inl ⟨subject, pattern, rfl, Text.eq_of_splitLast?_eq_some found⟩
    · exact .inr rfl

theorem unmarked_spaced (comparison : Comparison) : '@' ∉ comparison.spaced := by
  cases comparison <;> simp [Comparison.spaced, Comparison.symbol, Text.chars_eq_toList]

theorem exists_spells_embeddedMatch
    {directive : Directive}
    {subject pattern : List Char}
    (inside : subject ++ Comparison.matches.spaced ++ pattern <:+: directive.source)
    (marked_iff : '@' ∈ subject ++ Comparison.matches.spaced ++ pattern ↔
      ∃ operand ∈ directive.operands, '@' ∈ operand) :
    ∃ portions, embeddedMatch subject pattern = Portion.code portions ∧
      Spells portions directive := by
  have subjectInside : subject <:+: directive.source :=
    ((List.prefix_append _ _).trans (List.prefix_append _ _)).isInfix.trans inside
  have patternInside : pattern <:+: directive.source :=
    (List.suffix_append _ _).isInfix.trans inside
  refine ⟨[⟨.literal, _⟩, ⟨.operand, subject⟩, ⟨.literal, _⟩, ⟨.operand, pattern⟩, ⟨.literal, _⟩,
    ⟨.operand, Message.escape subject⟩, ⟨.literal, _⟩, ⟨.operand, Message.escape pattern⟩,
    ⟨.literal, _⟩], rfl, ?_, ?_⟩
  · exact .fixed rfl (.written subjectInside rfl (.written patternInside rfl
      (.escaped subjectInside rfl (.escaped patternInside rfl .nil))))
  · rw [← marked_iff]
    simp only [Portion.operands, List.mem_cons, List.mem_append, List.not_mem_nil, or_false,
      unmarked_spaced]
    grind [Message.mem_escape_iff]

theorem unmarked_standaloneCheck (comparison : Comparison) : '@' ∉ standaloneCheck comparison := by
  cases comparison <;> exact Portion.not_mem_chars rfl

theorem exists_spells_compare
    (dialect : Dialect)
    (tolerance : Nat)
    (left : List Char)
    (comparison : Comparison)
    (right : List Char) :
    ∃ portions, dialect.render tolerance (.compare left comparison right) =
        Portion.code portions ∧ Spells portions (.compare left comparison right) := by
  have whole : left ++ comparison.spaced ++ right <:+: (compare left comparison right).source :=
    ⟨"@assert ", ";", by simp [source]⟩
  have marked_iff : '@' ∈ left ++ comparison.spaced ++ right ↔
      ∃ operand ∈ (compare left comparison right).operands, '@' ∈ operand := by
    simp [operands, unmarked_spaced]
  cases dialect with
  | standalone =>
      have leftInside := ((List.prefix_append left comparison.spaced).trans
        (List.prefix_append _ right)).isInfix.trans whole
      have rightInside := (List.suffix_append _ right).isInfix.trans whole
      refine ⟨[⟨.literal, standaloneCheck comparison⟩, ⟨.operand, left⟩, ⟨.literal, _⟩,
        ⟨.operand, right⟩, ⟨.literal, _⟩, ⟨.operand, quoted left⟩, ⟨.literal, _⟩,
        ⟨.operand, quoted right⟩, ⟨.literal, _⟩], rfl, ?_, ?_⟩
      · exact .literal (unmarked_standaloneCheck comparison) (.written leftInside rfl
          (.written rightInside rfl (apart_quoted_cons leftInside rfl
            (apart_quoted_cons rightInside rfl .nil))))
      · simp only [Portion.operands, operands, List.mem_cons, List.not_mem_nil, or_false]
        grind [mem_quoted_iff]
  | embedded =>
      rcases embeddedComparison_cases left comparison right with
        ⟨subject, pattern, isMatch, parts⟩ | isCheck
      · rw [parts] at whole marked_iff
        obtain ⟨portions, isCode, spells⟩ := exists_spells_embeddedMatch whole marked_iff
        exact ⟨portions, isMatch.trans isCode, spells⟩
      · exact ⟨[⟨.literal, "ok("⟩, ⟨.operand, _⟩, ⟨.literal, _⟩, ⟨.operand, _⟩, ⟨.literal, _⟩],
          isCheck, spells_check (Portion.not_mem_chars rfl) whole marked_iff⟩

/-! ### Every directive -/

/-- Code without operands, for a directive without operands. -/
theorem spells_literal
    {directive : Directive}
    {literal : List Char}
    (unmarked : '@' ∉ literal)
    (noOperands : directive.operands = []) :
    Spells [⟨.literal, literal⟩] directive where
  apart := .literal unmarked .nil
  marked_iff := by simp [noOperands, Portion.operands]

/-- Whether code of its own stands for the directive.  Calls with alternatives stand as they are
written, and the mark of a failing statement stays a mark. -/
def isRewritten : Directive → Bool
  | .nonfinite .. => false
  | .todo => false
  | _ => true

theorem exists_spells
    {directive : Directive}
    (rewritten : directive.isRewritten = true)
    (dialect : Dialect)
    (tolerance : Nat) :
    ∃ portions, dialect.render tolerance directive = Portion.code portions ∧
      Spells portions directive := by
  cases directive with
  | nonfinite callable arguments tail => exact nomatch rewritten
  | todo => exact nomatch rewritten
  | pixel coordinates color allowed =>
      exact exists_spells_pixel dialect tolerance coordinates color allowed
  | throwsTyped error statement => exact exists_spells_throwsTyped dialect tolerance error statement
  | throws statement => exact exists_spells_throws dialect tolerance statement
  | compare left comparison right =>
      exact exists_spells_compare dialect tolerance left comparison right
  | truthy expression => exact exists_spells_truthy dialect tolerance expression
  | manual =>
      cases dialect <;> exact ⟨_, rfl, spells_literal (Portion.not_mem_chars rfl) rfl⟩
  | crash =>
      cases dialect <;> exact ⟨_, rfl, spells_literal (Portion.not_mem_chars rfl) rfl⟩
  | universalBrowserRead =>
      cases dialect <;> exact ⟨_, rfl, spells_literal (Portion.not_mem_chars rfl) rfl⟩

/-- The code of a directive holds a mark if what is written into it does. -/
theorem mem_render_iff
    {directive : Directive}
    (rewritten : directive.isRewritten = true)
    (dialect : Dialect)
    (tolerance : Nat) :
    '@' ∈ dialect.render tolerance directive ↔ ∃ operand ∈ directive.operands, '@' ∈ operand := by
  obtain ⟨portions, isCode, spells⟩ := exists_spells rewritten dialect tolerance
  rw [isCode, Portion.mem_code_iff spells.apart, spells.marked_iff]

/-- The mark of a failing statement behind the beginning of code stands in the directive or in what
follows it. -/
theorem holdsTodo_of_render_append
    {directive : Directive}
    (rewritten : directive.isRewritten = true)
    {dialect : Dialect}
    {behind : List Char}
    (holds : HoldsTodo (dialect.render tolerance directive ++ behind)) :
    HoldsTodo directive.source ∨ HoldsTodo behind := by
  obtain ⟨portions, isCode, spells⟩ := exists_spells rewritten dialect tolerance
  rw [isCode] at holds
  exact Portion.holdsTodo_of_code_append spells.apart holds

/-! ### What code begins with -/

theorem isRewritten_or_eq_todo_of_read?_eq_some
    {text rest : List Char}
    {directive : Directive}
    (found : read? .directive text = some (directive, rest)) :
    directive.isRewritten = true ∨ directive = .todo := by
  cases directive with
  | todo => exact .inr rfl
  | nonfinite callable arguments tail =>
      have whole := eq_source_append_of_read?_eq_some found
      simp only [read?] at found
      split at found
      · next assertion isAssertion =>
          rw [Text.after?_eq_some_iff.1 isAssertion] at whole
          simp [source, Text.chars_eq_toList] at whole
      · obtain ⟨marker, member, isMarker⟩ := List.exists_of_findSome?_eq_some found
        simp only [Option.map_eq_some_iff, Prod.mk.injEq] at isMarker
        obtain ⟨-, -, rfl, -⟩ := isMarker
        simp [markers] at member
  | _ => exact .inl rfl

theorem prefix_chars {lead others : List Char} :
    lead <+: Text.chars (String.ofList (lead ++ others)) := by
  rw [Text.chars_ofList]
  exact List.prefix_append lead others

theorem prefix_chars_append {lead others behind : List Char} :
    lead <+: Text.chars (String.ofList (lead ++ others)) ++ behind :=
  prefix_chars.trans (List.prefix_append _ behind)

/-- Embedded code begins with no character of the mark, with a `try` or, for an assertion, with a
call of `ok`. -/
theorem embedded_begins
    {directive : Directive}
    (rewritten : directive.isRewritten = true)
    (tolerance : Nat) :
    (∃ character, [character] <+: directive.embedded tolerance ∧ character ∉ todo.source) ∨
    ['t', 'r'] <+: directive.embedded tolerance ∨
    (['o', 'k'] <+: directive.embedded tolerance ∧ "@assert " <+: directive.source) := by
  have other : ∀ {character}, [character] <+: directive.embedded tolerance →
      character ∉ ['@', 'm', 'o', 'z', '-', 't', 'o', 'd', 'o'] →
      ∃ character, [character] <+: directive.embedded tolerance ∧ character ∉ todo.source :=
    fun begins absent => ⟨_, begins, HoldsTodo.source_todo ▸ absent⟩
  cases directive with
  | nonfinite callable arguments tail => exact nomatch rewritten
  | todo => exact nomatch rewritten
  | pixel coordinates color allowed =>
      refine .inl (@other 'i' ?_ (by decide))
      simp only [embedded, List.append_assoc]
      exact prefix_chars_append
  | throwsTyped error statement =>
      refine .inl (@other 'v' ?_ (by decide))
      simp only [embedded, List.append_assoc]
      exact prefix_chars_append
  | throws statement =>
      refine .inr (.inl ?_)
      simp only [embedded, List.append_assoc]
      exact prefix_chars_append
  | compare left comparison right =>
      refine .inr (.inr ⟨?_, ?_⟩)
      · rcases embeddedComparison_cases left comparison right with
          ⟨subject, pattern, isMatch, -⟩ | isCheck
        · simp only [embedded, isMatch, embeddedMatch, List.append_assoc]
          exact prefix_chars_append
        · simp only [embedded, isCheck, embeddedCheck, List.append_assoc]
          exact prefix_chars_append
      · simp only [source, List.append_assoc]
        exact List.prefix_append _ _
  | truthy expression =>
      refine .inr (.inr ⟨?_, ?_⟩)
      · simp only [embedded, embeddedCheck, List.append_assoc]
        exact prefix_chars_append
      · simp only [source, List.append_assoc]
        exact List.prefix_append _ _
  | manual => exact .inl (@other '/' prefix_chars (by decide))
  | crash => exact .inl (@other 'r' prefix_chars (by decide))
  | universalBrowserRead => exact .inl (@other 'n' prefix_chars (by decide))

/-- Embedded code goes on with the end of the mark of a failing statement only by its first
character, and only for an assertion. -/
theorem eq_of_ends_in_embedded
    {directive : Directive}
    (rewritten : directive.isRewritten = true)
    {word behind : List Char}
    (nonempty : word ≠ [])
    (ends : word <:+ ['m', 'o', 'z', '-', 't', 'o', 'd', 'o'])
    (begins : word <+: directive.embedded tolerance ++ behind) :
    word = ['o'] ∧ "@assert " <+: directive.source := by
  have lead := embedded_begins rewritten tolerance
  generalize directive.embedded tolerance = code at lead begins
  rcases lead with ⟨character, ⟨others, rfl⟩, absent⟩ | ⟨others, rfl⟩ |
    ⟨⟨others, rfl⟩, isAssertion⟩
  · obtain ⟨first, word, rfl⟩ := List.exists_cons_of_ne_nil nonempty
    obtain ⟨rfl, -⟩ := List.cons_prefix_cons.1 begins
    refine absurd ?_ absent
    rw [HoldsTodo.source_todo]
    exact List.mem_cons_of_mem _ (ends.subset List.mem_cons_self)
  all_goals
    simp only [List.suffix_cons_iff, List.suffix_nil] at ends
    rcases ends with rfl | rfl | rfl | rfl | rfl | rfl | rfl | rfl | rfl
    all_goals simp_all

end Directive

end Conformance
