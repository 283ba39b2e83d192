import Conformance.Proofs.Directive.Grammar
import Conformance.Proofs.Suite.Compilation
import Conformance.Proofs.Translator.Dialects
import Conformance.Proofs.Translator.Origin

/-!
# Remarks on transparent pixels

A test that is expected to be green is remarked on if, on a line of its body, a pixel assertion
begins and a transparent colour ends a statement later.  The body is looked at as it is written,
before calls are expanded, and the tolerance of a pixel is not looked for.  So an assertion of a
transparent pixel escapes the remark in two ways: it names its tolerance, or it is put together by
an expansion at a place inside of the words that are looked for.
-/

namespace Conformance

open scoped Text

namespace Body

/-! ## Pixels are solid -/

theorem isTight_cons_comma
    {next : Char}
    {rest : List Char}
    (notSpace : next ≠ ' ')
    (tight : IsTight (next :: rest)) :
    IsTight (',' :: next :: rest) := by
  intro front back parts
  cases front with
  | nil => exact ⟨next, rest, (List.cons.inj parts).2.symm, notSpace⟩
  | cons first front => exact tight front back (List.cons.inj parts).2

end Body

namespace Directive

theorem IsNumbers.exists_cons
    {commas : Nat}
    {numbers : List Char}
    (isNumbers : IsNumbers commas numbers) :
    ∃ first rest, numbers = first :: rest ∧ Text.isDecimalDigit first = true := by
  have exists_first {number : List Char} (isNumber : IsNumber number) :
      ∃ first rest, number = first :: rest ∧ Text.isDecimalDigit first = true := by
    obtain ⟨first, rest, rfl⟩ := List.exists_cons_of_ne_nil isNumber.nonempty
    exact ⟨first, rest, rfl, isNumber.digits first List.mem_cons_self⟩
  cases isNumbers with
  | one isNumber => exact exists_first isNumber
  | more isNumber others =>
      obtain ⟨first, rest, rfl, isDigit⟩ := exists_first isNumber
      exact ⟨first, _, by rw [List.cons_append, List.cons_append], isDigit⟩

theorem IsNumber.isTight {number : List Char} (isNumber : IsNumber number) :
    Body.IsTight number :=
  Body.isTight_of_not_mem fun isComma => absurd (isNumber.digits ',' isComma) (by decide)

/-- Every comma between numbers is followed by a digit. -/
theorem IsNumbers.isTight
    {commas : Nat}
    {numbers : List Char}
    (isNumbers : IsNumbers commas numbers) :
    Body.IsTight numbers := by
  induction isNumbers with
  | one isNumber => exact isNumber.isTight
  | more isNumber others inductionHypothesis =>
      have comma : Text.chars "," = [','] := by simp [Text.chars_eq_toList]
      obtain ⟨first, rest, rfl, isDigit⟩ := others.exists_cons
      have notSpace : first ≠ ' ' := by
        rintro rfl
        exact absurd isDigit (by decide)
      rw [comma, List.append_assoc]
      exact isNumber.isTight.append (Body.isTight_cons_comma notSpace inductionHypothesis)

/-- A pixel assertion holds digits, commas and the characters of its words. -/
theorem not_mem_source_of_isPixel
    {directive : Directive}
    {character : Char}
    (isPixel : directive.IsPixel)
    (notDigit : Text.isDecimalDigit character = false)
    (absent : character ∉ Text.chars "@assert pixel ==~ +/- ,;") :
    character ∉ directive.source := by
  cases directive with
  | pixel coordinates color allowed =>
      obtain ⟨isCoordinates, isColor, isAmount⟩ := isPixel
      simp only [Text.chars_eq_toList] at absent
      have notComma : character ≠ ',' := by
        rintro rfl
        exact absent (by decide)
      have notInNumbers {commas : Nat} {numbers : List Char} (isNumbers : IsNumbers commas numbers) :
          character ∉ numbers := fun member => by
        simpa [notDigit, notComma] using isNumbers.digit_or_comma member
      have notInCoordinates := notInNumbers isCoordinates
      have notInColor := notInNumbers isColor
      cases allowed with
      | exact | configured => simp_all [source, Text.chars_eq_toList]
      | explicit amount =>
          have notInAmount := notInNumbers (.one (isAmount amount rfl))
          simp_all [source, Text.chars_eq_toList]
  | _ => exact isPixel.elim

/-- A pixel assertion fits into no gap between the operands of a call. -/
theorem isSolid_source_of_isPixel
    {directive : Directive}
    (isPixel : directive.IsPixel) :
    Body.IsSolid directive.source := by
  refine ⟨?_, ?_, ?_, ?_, ?_⟩
  · exact not_mem_source_of_isPixel isPixel (by decide) (by simp [Text.chars_eq_toList])
  · exact not_mem_source_of_isPixel isPixel (by decide) (by simp [Text.chars_eq_toList])
  · exact not_mem_source_of_isPixel isPixel (by decide) (by simp [Text.chars_eq_toList])
  · obtain ⟨rest, isMarked⟩ := directive.source_eq_cons
    exact ⟨'@', rest, isMarked, by decide, by decide⟩
  · cases directive with
    | pixel coordinates color allowed =>
        obtain ⟨isCoordinates, isColor, isAmount⟩ := isPixel
        have tight {text : String} (noComma : ',' ∉ text.toList) : Body.IsTight text :=
          Body.isTight_of_not_mem (by rwa [Text.chars_eq_toList])
        cases allowed with
        | exact =>
            exact ((((tight (by decide)).append isCoordinates.isTight).append
              (tight (by decide))).append isColor.isTight).append (tight (by decide))
        | configured =>
            exact ((((tight (by decide)).append isCoordinates.isTight).append
              (tight (by decide))).append isColor.isTight).append (tight (by decide))
        | explicit amount =>
            exact ((((((tight (by decide)).append isCoordinates.isTight).append
              (tight (by decide))).append isColor.isTight).append (tight (by decide))).append
              (isAmount amount rfl).isTight).append (tight (by decide))
    | _ => exact isPixel.elim

end Directive

namespace Suite

/-! ## What is looked for -/

/-- On some line a pixel assertion begins, and a transparent colour ends a statement later. -/
def ShowsTransparentPixel (code : List Char) : Prop :=
  ∃ middle : List Char, '\n' ∉ middle ∧
    Text.chars "@assert pixel " ++ middle ++ Text.chars " 0,0,0,0;" <:+: code

/-- A word without a line break stands on the first line if nothing in front of it is one. -/
theorem infix_firstLine_iff {word text : List Char} (noBreak : '\n' ∉ word) :
    word <:+: Text.firstLine text ↔
      ∃ middle : List Char, '\n' ∉ middle ∧ middle ++ word <+: text := by
  constructor
  · rintro ⟨middle, rest, parts⟩
    refine ⟨middle, fun isBreak => ?_, rest ++ Text.afterFirstLine text, ?_⟩
    · have inFirst : '\n' ∈ Text.firstLine text := parts ▸ by simp [isBreak]
      simpa using List.mem_takeWhile_imp inFirst
    · rw [← List.append_assoc, parts, Text.firstLine_append_afterFirstLine]
  · rintro ⟨middle, noBreakBefore, rest, rfl⟩
    rw [Text.firstLine_append (by simp [noBreakBefore, noBreak])]
    exact ⟨middle, Text.firstLine rest, rfl⟩

theorem checksTransparentPixel_iff (text : List Char) :
    checksTransparentPixel text = true ↔ ShowsTransparentPixel text := by
  have noBreak : '\n' ∉ Text.chars " 0,0,0,0;" := by simp [Text.chars_eq_toList]
  induction text with
  | nil => simp [checksTransparentPixel, ShowsTransparentPixel, Text.chars_eq_toList]
  | cons character text inductionHypothesis =>
      have begins_iff :
          (Text.after? "@assert pixel " (character :: text)).any
              (fun rest => Text.occursIn " 0,0,0,0;" (Text.firstLine rest)) = true ↔
            ∃ middle : List Char, '\n' ∉ middle ∧
              Text.chars "@assert pixel " ++ middle ++ Text.chars " 0,0,0,0;" <+:
                character :: text := by
        simp only [Option.any_eq_true, Text.after?_eq_some_iff, Text.occursIn_eq_true_iff,
          infix_firstLine_iff noBreak]
        constructor
        · rintro ⟨rest, parts, middle, noBreakBefore, later, rfl⟩
          exact ⟨middle, noBreakBefore, later, by rw [parts]; simp⟩
        · rintro ⟨middle, noBreakBefore, later, parts⟩
          exact ⟨_, by rw [← parts, List.append_assoc, List.append_assoc], middle, noBreakBefore,
            later, by simp⟩
      rw [checksTransparentPixel, Bool.or_eq_true]
      refine (or_congr begins_iff inductionHypothesis).trans ?_
      simp only [ShowsTransparentPixel, List.infix_cons_iff, and_or_left, exists_or]

/-! ## Pixels by themselves -/

/-- A transparent pixel without a tolerance of its own is what is looked for. -/
theorem exists_source_eq
    {coordinates : List Char}
    {allowed : Tolerance}
    (isPixel : (Directive.pixel coordinates "0,0,0,0" allowed).IsPixel)
    (notExplicit : ∀ amount, allowed ≠ .explicit amount) :
    ∃ middle : List Char, '\n' ∉ middle ∧
      (Directive.pixel coordinates "0,0,0,0" allowed).source =
        Text.chars "@assert pixel " ++ middle ++ Text.chars " 0,0,0,0;" := by
  have noBreak : '\n' ∉ (Directive.pixel coordinates "0,0,0,0" allowed).source :=
    Directive.not_mem_source_of_isPixel isPixel (by decide) (by simp [Text.chars_eq_toList])
  cases allowed with
  | exact =>
      refine ⟨coordinates ++ " ==", ?_, by simp [Directive.source, Text.chars_eq_toList]⟩
      simp_all [Directive.source, Text.chars_eq_toList]
  | configured =>
      refine ⟨coordinates ++ " ==~", ?_, by simp [Directive.source, Text.chars_eq_toList]⟩
      simp_all [Directive.source, Text.chars_eq_toList]
  | explicit amount => exact absurd rfl (notExplicit amount)

/-- A pixel with a tolerance of its own is not what is looked for: its colour ends no statement. -/
theorem not_showsTransparentPixel_explicit
    {coordinates color amount : List Char}
    (isPixel : (Directive.pixel coordinates color (.explicit amount)).IsPixel) :
    ¬ ShowsTransparentPixel (Directive.pixel coordinates color (.explicit amount)).source := by
  rintro ⟨middle, -, occurs⟩
  obtain ⟨isCoordinates, isColor, isAmount⟩ := isPixel
  have noSemicolon {commas : Nat} {numbers : List Char}
      (isNumbers : Directive.IsNumbers commas numbers) : ';' ∉ numbers := fun member =>
    (isNumbers.digit_or_comma member).elim (absurd · (by decide)) (absurd · (by decide))
  have noComma : ',' ∉ amount := fun isComma =>
    absurd ((isAmount amount rfl).digits ',' isComma) (by decide)
  -- the colour and the semicolon would have to stand on one side of the space between them
  have colorEnds : [',', '0', ';'] <:+:
      Text.chars "@assert pixel " ++ middle ++ Text.chars " 0,0,0,0;" :=
    ⟨Text.chars "@assert pixel " ++ middle ++ Text.chars " 0,0,0", [], by
      simp [Text.chars_eq_toList]⟩
  have parts : (Directive.pixel coordinates color (.explicit amount)).source =
      (Text.chars "@assert pixel " ++ coordinates ++ " ==~ " ++ color ++ " +/-") ++
        ' ' :: (amount ++ ";") := by
    simp [Directive.source, Text.chars_eq_toList]
  have inSource := colorEnds.trans occurs
  rw [parts, Text.infix_append_cons_iff (by decide)] at inSource
  rcases inSource with inFront | inAmount
  · have semicolon := inFront.subset (a := ';') (by simp)
    simp [Text.chars_eq_toList, noSemicolon isCoordinates, noSemicolon isColor] at semicolon
  · have comma := inAmount.subset (a := ',') (by simp)
    simp [Text.chars_eq_toList, noComma] at comma

/-! ## Pixels of an expansion -/

/-- An assertion is put together by an expansion at a place inside of the words that are looked
for: a call begins behind a part of the first word, or in front of a part of the last one. -/
def IsSevered (source code : List Char) : Prop :=
  ∃ front back : List Char, front ≠ [] ∧ back ≠ [] ∧ source = front ++ back ∧
    front ++ Text.chars "@nonfinite " ++ back <:+: code ∧
    ¬ (Text.chars "@assert pixel " <+: front ∧ Text.chars " 0,0,0,0;" <:+ back)

/-- An assertion of a transparent pixel without a tolerance of its own that an expansion gives rise
to is seen in the body, unless it is severed. -/
theorem showsTransparentPixel_or_isSevered
    {code expanded coordinates : List Char}
    {allowed : Tolerance}
    (expands : Body.expand code = .ok expanded)
    (isPiece : .active (.pixel coordinates "0,0,0,0" allowed) ∈ Body.pieces .directive expanded)
    (notExplicit : ∀ amount, allowed ≠ .explicit amount) :
    ShowsTransparentPixel code ∨
      IsSevered (Directive.pixel coordinates "0,0,0,0" allowed).source code := by
  obtain ⟨text, rest, found⟩ := Body.exists_read?_of_mem_pieces isPiece
  have isPixel := Directive.isPixel_of_read?_eq_some found
  have solid := Directive.isSolid_source_of_isPixel isPixel
  obtain inCode | ⟨front, back, startsBefore, endsBehind, parts, occurs⟩ :=
    solid.infix_or_standsAcross expands (Body.source_infix_of_mem_pieces isPiece)
  · obtain ⟨middle, noBreak, source_eq⟩ := exists_source_eq isPixel notExplicit
    exact .inl ⟨middle, noBreak, source_eq ▸ inCode⟩
  · by_cases outside : Text.chars "@assert pixel " <+: front ∧ Text.chars " 0,0,0,0;" <:+ back
    · obtain ⟨⟨behind, rfl⟩, before, rfl⟩ := outside
      have noBreak := solid.noBreak
      refine .inl ⟨behind ++ Text.chars "@nonfinite " ++ before, ?_, ?_⟩
      · simp_all [Text.chars_eq_toList]
      · simpa using occurs
    · exact .inr ⟨front, back, startsBefore, endsBehind, parts, occurs, outside⟩

/-! ## The run -/

/-- A test is remarked on for its pixels if it is expected to be green and shows a transparent
pixel. -/
theorem suspiciousPixelTest_mem_remarks_iff
    (declared : List String)
    (test : TestCase)
    (name : String) :
    .suspiciousPixelTest name ∈ remarks declared test ↔
      test.name = name ∧ test.expected = some "green" ∧
        ShowsTransparentPixel test.code.toList := by
  have notClaim (ids : List String) :
      .suspiciousPixelTest name ∉ ids.map (Diagnostic.undeclaredAssertion test.name) := by
    simp
  have notMissing : .suspiciousPixelTest name ∉
      (if test.testing.isEmpty then [Diagnostic.noAssertionRefs test.name] else []) := by
    split <;> simp
  rw [← checksTransparentPixel_iff, remarks, List.mem_append, List.mem_append,
    or_iff_right (not_or.2 ⟨notClaim _, notMissing⟩), List.mem_ite_nil_right, List.mem_singleton,
    Diagnostic.suspiciousPixelTest.injEq, eq_comm (a := name), and_comm]

namespace Config

variable (config : Config)

theorem suspiciousPixelTest_mem_compileTest_iff
    (declared : List String)
    (context : Context)
    (test : TestCase)
    (name : String) :
    .suspiciousPixelTest name ∈ (config.compileTest declared context test).2.diagnostics ↔
      .suspiciousPixelTest name ∈ context.diagnostics ∨
        test.name = name ∧ test.expected = some "green" ∧
          ShowsTransparentPixel test.code.toList := by
  have notDuplicate : .suspiciousPixelTest name ∉
      (if context.hasSeen test then [Diagnostic.duplicateTestName test.name] else []) := by
    split <;> simp
  have notSkipped : .suspiciousPixelTest name ∉ config.skipRemarks test := by
    rw [skipRemarks]
    split <;> simp
  rw [compileTest_snd, check_eq, List.mem_append, List.mem_append, List.mem_append,
    or_iff_left notSkipped, or_iff_right notDuplicate, suspiciousPixelTest_mem_remarks_iff]

/-- A run remarks on the pixels of its tests, one by one. -/
theorem suspiciousPixelTest_mem_compileAll_iff
    (declared : List String)
    (context : Context)
    (tests : List TestCase)
    (name : String) :
    .suspiciousPixelTest name ∈ (config.compileAll declared context tests).2.diagnostics ↔
      .suspiciousPixelTest name ∈ context.diagnostics ∨
        ∃ test ∈ tests, test.name = name ∧ test.expected = some "green" ∧
          ShowsTransparentPixel test.code.toList := by
  induction tests generalizing context with
  | nil => simp [compileAll]
  | cons test tests inductionHypothesis =>
      refine (inductionHypothesis (config.compileTest declared context test).2).trans ?_
      rw [suspiciousPixelTest_mem_compileTest_iff, List.exists_mem_cons_iff, or_assoc]

/-- A run remarks on the green tests that show a transparent pixel, and on no others.  So it
remarks on every green test whose expansion asserts a transparent pixel, unless the assertion names
its tolerance or is severed; and an assertion that names its tolerance is nothing to remark on by
itself. -/
theorem suspiciousPixelTest_mem_compileTests
    (context : Context)
    (tests : List TestCase)
    (assertions : List SpecAssertion) :
    let output := config.compileTests context tests assertions
    (∀ name, .suspiciousPixelTest name ∈ output.2.diagnostics ↔
      .suspiciousPixelTest name ∈ context.diagnostics ∨
        ∃ test ∈ tests, test.name = name ∧ test.expected = some "green" ∧
          ShowsTransparentPixel test.code.toList) ∧
    (∀ test ∈ tests, test.expected = some "green" →
      ∀ expanded coordinates allowed, Body.expand test.code.toList = .ok expanded →
        .active (.pixel coordinates "0,0,0,0" allowed) ∈ Body.pieces .directive expanded →
        .suspiciousPixelTest test.name ∈ output.2.diagnostics ∨
          (∃ amount, allowed = .explicit amount) ∨
          IsSevered (Directive.pixel coordinates "0,0,0,0" allowed).source test.code.toList) ∧
    ∀ coordinates color amount, (Directive.pixel coordinates color (.explicit amount)).IsPixel →
      ¬ ShowsTransparentPixel (Directive.pixel coordinates color (.explicit amount)).source := by
  intro output
  have remarked_iff (name : String) :=
    config.suspiciousPixelTest_mem_compileAll_iff (assertions.map SpecAssertion.id) context tests
      name
  refine ⟨remarked_iff, ?_, fun _ _ _ => not_showsTransparentPixel_explicit⟩
  intro test isTest green expanded coordinates allowed expands isPiece
  by_cases isExplicit : ∃ amount, allowed = .explicit amount
  · exact .inr (.inl isExplicit)
  · rw [not_exists] at isExplicit
    obtain shows | severed := showsTransparentPixel_or_isSevered expands isPiece isExplicit
    · exact .inl ((remarked_iff test.name).2 (.inr ⟨test, isTest, rfl, green, shows⟩))
    · exact .inr (.inr severed)

/-- A call begins behind the words of the assertion and in front of its whole colour. -/
theorem suspiciousPixelTest_mem_compileTests_call :
    let test : TestCase :=
      { name := "clear", code := "@assert pixel 50,@nonfinite 25 == 0,0,0,0; f(<1 2>);"
        expected := some "green" }
    let expanded : List Char := "@assert pixel 50,25 == 0,0,0,0; f(2);"
    let pixel : List Char → Tolerance → Directive := .pixel "50,25"
    let diagnostics := (({} : Config).compileTests {} [test] []).2.diagnostics
    test.expected = some "green" ∧
      Body.expand test.code.toList = .ok expanded ∧
      .active (pixel "0,0,0,0" .exact) ∈ Body.pieces .directive expanded ∧
      (pixel "0,0,0,0" (.explicit "2")).IsPixel ∧
      (.suspiciousPixelTest "clear" ∈ diagnostics ∨ (∃ amount, Tolerance.exact = .explicit amount) ∨
        IsSevered (pixel "0,0,0,0" .exact).source test.code.toList) ∧
      .suspiciousPixelTest "clear" ∈ diagnostics ∧
      ¬ ShowsTransparentPixel (pixel "0,0,0,0" (.explicit "2")).source := by
  intro test expanded pixel diagnostics
  have expands : Body.expand test.code.toList = .ok expanded := by
    simp only [test, expanded, Text.chars_eq_toList]
    decide +kernel
  have isPiece : .active (pixel "0,0,0,0" .exact) ∈ Body.pieces .directive expanded := by
    simp only [pixel, expanded, Text.chars_eq_toList]
    decide +kernel
  have isRead : Directive.read? .directive (pixel "0,0,0,0" (.explicit "2")).source =
      some (pixel "0,0,0,0" (.explicit "2"), []) := by
    simp only [pixel, Text.chars_eq_toList]
    decide +kernel
  have isPixel := Directive.isPixel_of_read?_eq_some isRead
  have shows : ShowsTransparentPixel test.code.toList := by
    rw [← checksTransparentPixel_iff]
    decide +kernel
  obtain ⟨remarked_iff, pixels, alone⟩ :=
    ({} : Config).suspiciousPixelTest_mem_compileTests {} [test] []
  have isTest := List.mem_singleton_self test
  exact ⟨rfl, expands, isPiece, isPixel, pixels test isTest rfl _ _ _ expands isPiece,
    (remarked_iff "clear").2 (.inr ⟨test, isTest, rfl, rfl, shows⟩), alone _ _ _ isPixel⟩

/-- Neither a pixel with a tolerance of its own nor a severed one is remarked on, though the
translation recognises both. -/
theorem compileTests_not_remarked :
    let tolerant : TestCase :=
      { name := "tolerant", code := "@assert pixel 50,25 ==~ 0,0,0,0 +/- 2;"
        expected := some "green" }
    let severed : TestCase :=
      { name := "severed", code := "@assert pixel 50,25 == 0,0,@nonfinite 0,0; f(<1 2>);"
        expected := some "green" }
    let expanded : List Char := "@assert pixel 50,25 == 0,0,0,0; f(2);"
    (Body.expand tolerant.code.toList = .ok tolerant.code.toList ∧
      .active (.pixel "50,25" "0,0,0,0" (.explicit "2")) ∈
        Body.pieces .directive tolerant.code.toList) ∧
      (Body.expand severed.code.toList = .ok expanded ∧
        .active (.pixel "50,25" "0,0,0,0" .exact) ∈ Body.pieces .directive expanded) ∧
      ∀ name, .suspiciousPixelTest name ∉
        (({} : Config).compileTests {} [tolerant, severed] []).2.diagnostics := by
  intro tolerant severed expanded
  refine ⟨⟨?_, ?_⟩, ⟨?_, ?_⟩, fun name => ?_⟩
  · decide +kernel
  · simp only [tolerant, Text.chars_eq_toList]
    decide +kernel
  · simp only [severed, expanded, Text.chars_eq_toList]
    decide +kernel
  · simp only [expanded, Text.chars_eq_toList]
    decide +kernel
  · have noPixels : ∀ test ∈ [tolerant, severed],
        checksTransparentPixel test.code.toList = false := by
      decide +kernel
    rw [compileTests, suspiciousPixelTest_mem_compileAll_iff]
    simp only [← checksTransparentPixel_iff]
    rintro (earlier | ⟨test, isTest, -, -, shows⟩)
    · cases earlier
    · exact absurd shows (by rw [noPixels test isTest]; decide)

end Config

end Suite
end Conformance
