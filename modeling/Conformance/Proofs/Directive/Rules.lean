import Conformance.Proofs.Directive.Patterns

/-!
# The tables of rules

The directive that is read at the beginning of a text is the one that the first matching rule of the
stage builds.  The order of the rules and the greedy runs of their patterns come to what the readers
do directly: an operand reaches to the last semicolon of the line, and of the operators that occur
the first one of the table counts, where it occurs last.
-/

namespace Conformance
namespace Directive

open scoped Text

variable {Item Result : Type}

/-! ## Searches in turn -/

theorem findSome?_cons_eq_or (item : Item) (items : List Item) (find? : Item → Option Result) :
    (item :: items).findSome? find? = (find? item).or (items.findSome? find?) := by
  rw [List.findSome?_cons]
  cases find? item <;> rfl

/-- What is searched for behind the same front is searched for there in turn. -/
theorem bind_or_bind (front : Option Item) (first second : Item → Option Result) :
    (front.bind first).or (front.bind second) =
      front.bind fun item => (first item).or (second item) := by
  cases front <;> rfl

/-! ## The rules for statements -/

variable {text rest statement : List Char}

theorem chars_assertThrows : Text.chars "@assert throws " = "@assert " ++ "throws " := by
  simp [Text.chars_eq_toList]

theorem find?_comparisonRule (name : String) (comparison : Comparison) (text : List Char) :
    (comparisonRule name comparison).find? ("@assert " ++ text) =
      (readStatement? text).bind fun (statement, rest) =>
        (Text.splitLast? comparison.spaced statement).map fun (left, right) =>
          (.compare left comparison right, rest) := by
  have oneLine : '\n' ∉ comparison.spaced := by
    cases comparison <;> simp [Comparison.spaced, Comparison.symbol, Text.chars_eq_toList]
  rw [Rule.find?, comparisonRule, match?_chars, Text.after?_append_self, Option.bind_some,
    match?_comparison oneLine, Option.map_bind]
  simp [Function.comp_def]

theorem find?_truthyRule (text : List Char) :
    truthyRule.find? ("@assert " ++ text) =
      (readStatement? text).map fun (statement, rest) => (.truthy statement, rest) := by
  rw [Rule.find?, truthyRule, match?_chars, Text.after?_append_self, Option.bind_some,
    match?_statement, Option.map_map]
  rfl

theorem find?_throwsRule_eq_some_iff {directive : Directive} :
    throwsRule.find? ("@assert " ++ text) = some (directive, rest) ↔
      ∃ body, directive = .throws body ∧ readStatement? text = some ("throws " ++ body, rest) := by
  have keyword : '\n' ∉ Text.chars "throws " := by simp [Text.chars_eq_toList]
  rw [Rule.find?, throwsRule, match?_chars, chars_assertThrows, Text.after?_append,
    Text.after?_append_self, Option.bind_some]
  simp only [match?_statement, Option.map_eq_some_iff, Option.bind_eq_some_iff,
    Text.after?_eq_some_iff, Prod.exists, Prod.mk.injEq, ← exists_readStatement?_iff keyword]
  constructor
  · rintro ⟨_, _, ⟨later, rfl, body, _, isBody, rfl, rfl⟩, rfl, rfl⟩
    exact ⟨body, rfl, later, rfl, isBody⟩
  · rintro ⟨body, rfl, later, rfl, isBody⟩
    exact ⟨_, _, ⟨later, rfl, body, _, isBody, rfl, rfl⟩, rfl, rfl⟩

theorem find?_throwsTypedRule_eq_some_iff {directive : Directive} :
    throwsTypedRule.find? ("@assert " ++ text) = some (directive, rest) ↔
      ∃ word body, directive = .throwsTyped word body ∧ IsErrorWord word ∧
        readStatement? text = some ("throws " ++ (word ++ " " ++ body), rest) := by
  have keyword : '\n' ∉ Text.chars "throws " := by simp [Text.chars_eq_toList]
  have isBlank : Text.isBlank '\n' = true := by decide
  have named {word : List Char} (isErrorWord : IsErrorWord word) : '\n' ∉ word ++ " " := by
    rw [List.mem_append, not_or]
    refine ⟨fun member => ?_, by simp [Text.chars_eq_toList]⟩
    simp [isErrorWord.noBlank _ member] at isBlank
  rw [Rule.find?, throwsTypedRule, match?_chars, chars_assertThrows, Text.after?_append,
    Text.after?_append_self, Option.bind_some]
  simp only [Option.map_eq_some_iff, Option.bind_eq_some_iff, Text.after?_eq_some_iff,
    Prod.exists, Prod.mk.injEq, match?_errorName_eq_some_iff, ← exists_readStatement?_iff keyword]
  constructor
  · rintro ⟨_, _, ⟨_, rfl, word, body, later, rfl, isErrorWord, rfl, isBody⟩, rfl, rfl⟩
    exact ⟨word, body, rfl, isErrorWord, _, rfl, readStatement?_append (named isErrorWord) isBody⟩
  · rintro ⟨word, body, rfl, isErrorWord, _, rfl, isStatement⟩
    obtain ⟨later, rfl, isBody⟩ := (exists_readStatement?_iff (named isErrorWord)).2 isStatement
    exact ⟨_, _, ⟨_, rfl, word, body, later, rfl, isErrorWord, rfl, isBody⟩, rfl, rfl⟩

/-- The rules for exceptions find out whether the code is named. -/
theorem find?_throwing
    {body : List Char}
    (isStatement : readStatement? text = some ("throws " ++ body, rest)) :
    (throwsTypedRule.find? ("@assert " ++ text)).or (throwsRule.find? ("@assert " ++ text)) =
      some (ofThrowing body, rest) := by
  by_cases typed : ∃ word statement, IsErrorWord word ∧ body = word ++ " " ++ statement
  · obtain ⟨word, statement, isErrorWord, rfl⟩ := typed
    rw [find?_throwsTypedRule_eq_some_iff.2 ⟨word, statement, rfl, isErrorWord, isStatement⟩,
      ofThrowing_of_isErrorWord isErrorWord, Option.some_or]
  · have untyped : throwsTypedRule.find? ("@assert " ++ text) = none := by
      refine Option.eq_none_iff_forall_ne_some.2 ?_
      rintro ⟨directive, behind⟩ found
      obtain ⟨word, statement, -, isErrorWord, isTyped⟩ := find?_throwsTypedRule_eq_some_iff.1 found
      obtain ⟨same, -⟩ := Prod.mk.inj (Option.some.inj (isStatement.symm.trans isTyped))
      exact typed ⟨word, statement, isErrorWord, List.append_cancel_left same⟩
    rw [untyped, find?_throwsRule_eq_some_iff.2 ⟨body, rfl, isStatement⟩, Option.none_or,
      ofThrowing_of_untyped fun word statement isErrorWord same =>
        typed ⟨word, statement, isErrorWord, same⟩]

/-- Without an exception the first operator of the table that occurs decides. -/
theorem findSome?_comparing (isStatement : readStatement? text = some (statement, rest)) :
    (comparisonRules ++ [truthyRule]).findSome? (fun rule => rule.find? ("@assert " ++ text)) =
      some (ofExpression statement, rest) := by
  have compared : comparisonRules.findSome? (fun rule => rule.find? ("@assert " ++ text)) =
      (Comparison.all.findSome? fun comparison =>
        (Text.splitLast? comparison.spaced statement).map fun (left, right) =>
          Directive.compare left comparison right).map (·, rest) := by
    simp only [comparisonRules, Comparison.all, findSome?_cons_eq_or, List.findSome?_nil,
      Option.or_none, find?_comparisonRule, isStatement, Option.bind_some, Option.map_or,
      Option.map_map]
    rfl
  rw [List.findSome?_append, compared, List.findSome?_singleton, find?_truthyRule, isStatement,
    ofExpression]
  cases Comparison.all.findSome? fun comparison =>
    (Text.splitLast? comparison.spaced statement).map fun (left, right) =>
      Directive.compare left comparison right <;> rfl

/-- The rules for statements find what the statement in front of the last semicolon asserts. -/
theorem findSome?_statementRules (text : List Char) :
    statementRules.findSome? (fun rule => rule.find? ("@assert " ++ text)) =
      (readStatement? text).map fun (statement, rest) => (ofStatement statement, rest) := by
  -- without such a statement the rules for exceptions find nothing
  have noException (absent : ∀ body rest : List Char,
      readStatement? text ≠ some ("throws " ++ body, rest)) :
      (throwsTypedRule.find? ("@assert " ++ text)).or (throwsRule.find? ("@assert " ++ text)) =
        none := by
    refine Option.or_eq_none_iff.2 ⟨?_, ?_⟩ <;> refine Option.eq_none_iff_forall_ne_some.2 ?_
    · rintro ⟨directive, rest⟩ found
      obtain ⟨word, body, -, -, isStatement⟩ := find?_throwsTypedRule_eq_some_iff.1 found
      exact absent _ rest isStatement
    · rintro ⟨directive, rest⟩ found
      obtain ⟨body, -, isStatement⟩ := find?_throwsRule_eq_some_iff.1 found
      exact absent body rest isStatement
  rw [statementRules, findSome?_cons_eq_or, findSome?_cons_eq_or, ← Option.or_assoc]
  cases isStatement : readStatement? text with
  | none =>
      rw [noException (by simp [isStatement])]
      simp [comparisonRules, find?_comparisonRule, find?_truthyRule, isStatement]
  | some item =>
      obtain ⟨statement, rest⟩ := item
      rw [findSome?_comparing isStatement, Option.map_some]
      simp only [ofStatement]
      cases throwing : Text.after? "throws " statement with
      | some body =>
          rw [Text.after?_eq_some_iff.1 throwing] at isStatement
          rw [find?_throwing isStatement, Option.some_or]
      | none =>
          rw [noException, Option.none_or]
          intro body behind same
          obtain ⟨rfl, -⟩ := Prod.mk.inj (Option.some.inj (isStatement.symm.trans same))
          rw [Text.after?_append_self] at throwing
          cases throwing

/-! ## The rules for pixels -/

theorem chars_assertPixel : Text.chars "@assert pixel " = "@assert " ++ "pixel " := by
  simp [Text.chars_eq_toList]

theorem find?_pixelRule
    {name : String}
    {operator : List Char}
    {ending : List Part}
    {allowed : (Nat → List Char) → Tolerance}
    (operatorApart : ∀ digit rest, Text.isDecimalDigit digit = true →
      Text.after? operator (digit :: rest) = none)
    (endingApart : ∀ digit rest, Text.isDecimalDigit digit = true →
      match? ending (digit :: rest) = none)
    (text : List Char) :
    (pixelRule name operator ending allowed).find? ("@assert " ++ text) =
      (Text.after? "pixel " text).bind fun afterPixel =>
        (readNumbers? 1 afterPixel).bind fun coordinates =>
          (Text.after? operator coordinates.2).bind fun expected =>
            (readNumbers? 3 expected).bind fun color =>
              (match? ending color.2).map fun found =>
                (.pixel coordinates.1 color.1
                  (allowed fun index =>
                    (coordinates.1 :: color.1 :: found.1).getD (index - 1) []),
                  found.2) := by
  rw [Rule.find?, pixelRule, match?_chars, chars_assertPixel, Text.after?_append,
    Text.after?_append_self, Option.bind_some, Option.map_bind]
  refine Option.bind_congr fun afterPixel _ => ?_
  rw [Function.comp_apply, match?_numbers]
  · rw [Option.map_bind]
    refine Option.bind_congr fun coordinates _ => ?_
    rw [Function.comp_apply, Option.map_map, match?_chars, Option.map_bind]
    refine Option.bind_congr fun expected _ => ?_
    rw [Function.comp_apply, match?_numbers endingApart, Option.map_bind]
    refine Option.bind_congr fun color _ => ?_
    rw [Function.comp_apply, Option.map_map]
    rfl
  · intro digit rest isDigit
    rw [match?_chars, operatorApart digit rest isDigit, Option.bind_none]

/-- Behind the coordinates the operators and the endings are looked for one after the other. -/
theorem readPixelColor?_eq_or (coordinates text : List Char) :
    readPixelColor? coordinates text =
      ((Text.after? " == " text).bind fun expected =>
        (readNumbers? 3 expected).bind fun color =>
          (Text.after? ";" color.2).map fun rest => (.pixel coordinates color.1 .exact, rest)).or
      ((Text.after? " ==~ " text).bind fun expected =>
        (readNumbers? 3 expected).bind fun color =>
          ((Text.after? ";" color.2).map fun rest =>
              (.pixel coordinates color.1 .configured, rest)).or
            ((Text.after? " +/- " color.2).bind fun afterSign =>
              (readDigits? afterSign).bind fun amount =>
                (Text.after? ";" amount.2).map fun rest =>
                  (.pixel coordinates color.1 (.explicit amount.1), rest))) := by
  rw [readPixelColor?]
  cases isEqual : Text.after? " == " text with
  | some expected =>
      have notAlmost : Text.after? " ==~ " text = none := by
        rw [Text.after?_eq_some_iff.1 isEqual]
        simp [Text.chars_eq_toList, Text.after?]
      rw [notAlmost, Option.bind_none, Option.or_none, Option.bind_some]
      simp only [Option.bind_eq_bind, Option.pure_def, Option.map_eq_bind]
      rfl
  | none =>
      rw [Option.bind_none, Option.none_or]
      refine Option.bind_congr fun expected _ => ?_
      refine Option.bind_congr fun item _ => ?_
      obtain ⟨color, afterColor⟩ := item
      simp only [Option.bind_eq_bind, Option.pure_def, Option.map_eq_bind]
      cases Text.after? ";" afterColor <;> rfl

/-- The rules for pixels find what is read as a pixel. -/
theorem findSome?_pixelRules (text : List Char) :
    pixelRules.findSome? (fun rule => rule.find? ("@assert " ++ text)) =
      (Text.after? "pixel " text).bind readPixel? := by
  have equalApart : ∀ digit rest, Text.isDecimalDigit digit = true →
      Text.after? " == " (digit :: rest) = none :=
    fun _ rest isDigit => after?_digit_cons (by decide) isDigit rest
  have almostApart : ∀ digit rest, Text.isDecimalDigit digit = true →
      Text.after? " ==~ " (digit :: rest) = none :=
    fun _ rest isDigit => after?_digit_cons (by decide) isDigit rest
  have closingApart : ∀ digit rest, Text.isDecimalDigit digit = true →
      match? [.chars ";"] (digit :: rest) = none := by
    intro digit rest isDigit
    rw [match?_ending, after?_digit_cons (by decide) isDigit rest, Option.map_none]
  have signApart : ∀ digit rest, Text.isDecimalDigit digit = true →
      match? [.chars " +/- ", .group [digits], .chars ";"] (digit :: rest) = none := by
    intro digit rest isDigit
    rw [match?_tolerance, after?_digit_cons (by decide) isDigit rest, Option.bind_none]
  simp only [pixelRules, findSome?_cons_eq_or, List.findSome?_nil, Option.or_none,
    find?_pixelRule equalApart closingApart, find?_pixelRule almostApart closingApart,
    find?_pixelRule almostApart signApart, match?_ending, match?_tolerance, bind_or_bind]
  refine Option.bind_congr fun afterPixel _ => ?_
  refine Option.bind_congr fun coordinates _ => ?_
  simp only [Option.map_map, Option.map_bind, Function.comp_def]
  exact (readPixelColor?_eq_or coordinates.1 coordinates.2).symm

/-! ## The rules without operands -/

theorem find?_markerRule (name : String) (spelling : List Char) (marker : Directive) :
    (markerRule name spelling marker).find? text =
      (Text.after? spelling text).map (marker, ·) := by
  rw [Rule.find?, markerRule, match?_ending, Option.map_map]
  rfl

theorem findSome?_markerRules (text : List Char) :
    markerRules.findSome? (fun rule => rule.find? text) = readMarker? text := by
  -- taking the space along does not change what is found
  have absorbing : Rule.find?
      { markerRule "todo" "@moz-todo" .todo with absorbsLeadingSpace := true } text =
      (markerRule "todo" "@moz-todo" .todo).find? text :=
    rfl
  simp only [markerRules, markers, readMarker?, List.findSome?_cons, List.findSome?_nil, absorbing,
    find?_markerRule, source]

theorem readMarker?_assert (text : List Char) : readMarker? ("@assert " ++ text) = none := by
  simp [readMarker?, markers, source, Text.chars_eq_toList, Text.after?]

/-! ## The rule for calls -/

theorem drop_length_takeWhile (accept : Char → Bool) (text : List Char) :
    text.drop (text.takeWhile accept).length = text.dropWhile accept := by
  have parts := takeWhile_append_drop accept text
  conv at parts => rhs; rw [← List.takeWhile_append_dropWhile (p := accept) (l := text)]
  exact List.append_cancel_left parts

theorem findSome?_expansionRules (text : List Char) :
    expansionRules.findSome? (fun rule => rule.find? text) =
      (Text.after? "@nonfinite " text).bind readNonfinite? := by
  have stopsAt {stop : Char} {accept : Char → Bool} {parts : List Part}
      (refused : accept stop = false) (character : Char) (rest : List Char)
      (accepted : accept character = true) :
      match? (.chars [stop] :: parts) (character :: rest) = none := by
    rw [match?_chars, Text.after?_cons_of_ne, Option.bind_none]
    rintro rfl
    simp [refused] at accepted
  have opening : Text.chars "(" = ['('] := by simp [Text.chars_eq_toList]
  have closing : Text.chars ")" = [')'] := by simp [Text.chars_eq_toList]
  rw [expansionRules, List.findSome?_singleton, Rule.find?, match?_chars, Option.map_bind]
  refine Option.bind_congr fun call _ => ?_
  simp only [Function.comp_apply, opening, closing, readNonfinite?, drop_length_takeWhile,
    Option.bind_eq_bind, Option.pure_def]
  rw [match?_run (stopsAt (by decide)), match?_chars]
  cases Text.after? ['(']
      (call.dropWhile fun character => character != '(' && character != '\n') with
  | none => simp
  | some opened =>
      simp only [Option.bind_some]
      rw [match?_run (stopsAt (by decide)), match?_chars]
      cases Text.after? [')']
          (opened.dropWhile fun character => character != ')' && character != '\n') with
      | none => simp
      | some closed =>
          simp only [Option.bind_some, match?_tail, Nat.zero_le, if_true, Option.map_some]
          cases call.takeWhile fun character => character != '(' && character != '\n' <;> simp

/-! ## The tables -/

variable {stage : Stage} {rule : Rule} {directive : Directive}

/-- The rules for assertions share their keyword. -/
theorem exists_pattern_eq_assert (member : rule ∈ pixelRules ∨ rule ∈ statementRules) :
    ∃ more parts, rule.pattern = .chars ("@assert " ++ more) :: parts := by
  simp only [pixelRules, statementRules, comparisonRules, List.cons_append, List.nil_append,
    List.mem_cons, List.not_mem_nil, or_false] at member
  rcases member with (rfl | rfl | rfl) | (rfl | rfl | rfl | rfl | rfl | rfl | rfl)
  · exact ⟨"pixel ", _, by rw [pixelRule, chars_assertPixel]⟩
  · exact ⟨"pixel ", _, by rw [pixelRule, chars_assertPixel]⟩
  · exact ⟨"pixel ", _, by rw [pixelRule, chars_assertPixel]⟩
  · exact ⟨"throws ", _, by rw [throwsTypedRule, chars_assertThrows]⟩
  · exact ⟨"throws ", _, by rw [throwsRule, chars_assertThrows]⟩
  all_goals exact ⟨[], _, by rw [List.append_nil]; rfl⟩

theorem find?_of_no_assert
    (member : rule ∈ pixelRules ∨ rule ∈ statementRules)
    (absent : Text.after? "@assert " text = none) :
    rule.find? text = none := by
  obtain ⟨more, parts, pattern_eq⟩ := exists_pattern_eq_assert member
  rw [Rule.find?, pattern_eq, match?_chars, Text.after?_append, absent]
  rfl

theorem findSome?_directiveRules (text : List Char) :
    directiveRules.findSome? (fun rule => rule.find? text) = read? .directive text := by
  rw [directiveRules, List.findSome?_append, List.findSome?_append, findSome?_markerRules, read?]
  cases isAssertion : Text.after? "@assert " text with
  | some assertion =>
      obtain rfl := Text.after?_eq_some_iff.1 isAssertion
      rw [findSome?_pixelRules, findSome?_statementRules, readMarker?_assert, Option.or_none]
      simp only [readAssertion?]
      cases (Text.after? "pixel " assertion).bind readPixel? <;> rfl
  | none =>
      have noPixel : pixelRules.findSome? (fun rule => rule.find? text) = none :=
        List.findSome?_eq_none_iff.2 fun rule member =>
          find?_of_no_assert (.inl member) isAssertion
      have noStatement : statementRules.findSome? (fun rule => rule.find? text) = none :=
        List.findSome?_eq_none_iff.2 fun rule member =>
          find?_of_no_assert (.inr member) isAssertion
      rw [noPixel, noStatement, Option.none_or, Option.none_or]

/-- The directive that is read is the one that the first matching rule finds. -/
theorem findSome?_rules (stage : Stage) (text : List Char) :
    stage.rules.findSome? (fun rule => rule.find? text) = read? stage text := by
  cases stage with
  | expansion => exact findSome?_expansionRules text
  | directive => exact findSome?_directiveRules text

/-- A rule builds the directives that are named after it. -/
theorem ruleName_build (member : rule ∈ stage.rules) (group : Nat → List Char) :
    rule.name = (rule.build group).ruleName ∧
      rule.absorbsLeadingSpace = (rule.build group).absorbsLeadingSpace := by
  cases stage with
  | expansion =>
      simp only [Stage.rules, expansionRules, List.mem_singleton] at member
      rw [member]
      exact ⟨rfl, rfl⟩
  | directive =>
      simp only [Stage.rules, directiveRules, pixelRules, statementRules, comparisonRules,
        markerRules, List.cons_append, List.nil_append, List.mem_cons, List.not_mem_nil, or_false]
        at member
      rcases member with rfl | rfl | rfl | rfl | rfl | rfl | rfl | rfl | rfl | rfl | rfl | rfl |
        rfl | rfl
      all_goals exact ⟨rfl, rfl⟩

/-- The search through the rules of a stage finds what is read. -/
theorem map_matchRules? (stage : Stage) (text : List Char) :
    (matchRules? stage.rules text).map Prod.snd = read? stage text := by
  rw [matchRules?, List.map_findSome?, ← findSome?_rules]
  simp [Function.comp_def]

theorem exists_matchRules?_iff (stage : Stage) :
    (∃ rule, matchRules? stage.rules text = some (rule, directive, rest)) ↔
      read? stage text = some (directive, rest) := by
  simp [← map_matchRules?]

/-- The rule that is found is the one that the directive is named after. -/
theorem ruleName_of_matchRules?_eq_some
    (found : matchRules? stage.rules text = some (rule, directive, rest)) :
    rule.name = directive.ruleName ∧
      rule.absorbsLeadingSpace = directive.absorbsLeadingSpace := by
  obtain ⟨_, member, isMatch⟩ := List.exists_of_findSome?_eq_some found
  obtain ⟨_, isFound, same⟩ := Option.map_eq_some_iff.1 isMatch
  obtain ⟨rfl, rfl⟩ := Prod.mk.inj same
  obtain ⟨⟨groups, behind⟩, -, built⟩ := Option.map_eq_some_iff.1 isFound
  obtain ⟨rfl, -⟩ := Prod.mk.inj built
  exact ruleName_build member _

/-! ## The grammar -/

/-- The search through the rules of either stage parses exactly their grammar.  A directive that it
finds stands on the first line, and written as it is found it is exactly the part of the text that
it takes.  Pixel assertions are found exactly by their grammar.  If no rule for pixels matches, an
assertion takes the line up to its last semicolon, and is the one that its statement asserts. -/
theorem matchRules?_parses :
    (∀ (stage : Stage) {text rule directive rest},
      matchRules? stage.rules text = some (rule, directive, rest) →
        rule.name = directive.ruleName ∧
          rule.absorbsLeadingSpace = directive.absorbsLeadingSpace ∧
          1 ≤ Text.byteSize text - Text.byteSize rest ∧
          directive.source <+: Text.firstLine text ∧
          Text.cutAt (Text.byteSize text - Text.byteSize rest) text = (directive.source, rest)) ∧
    (∀ {coordinates color allowed text rest},
      (∃ rule, matchRules? directiveRules text =
          some (rule, .pixel coordinates color allowed, rest)) ↔
        (pixel coordinates color allowed).IsPixel ∧
          text = (pixel coordinates color allowed).source ++ rest) ∧
    ∀ {text statement more : List Char},
      Text.firstLine text = "@assert " ++ statement ++ ";" ++ more → ';' ∉ more →
      (∀ rule ∈ pixelRules, rule.find? text = none) →
      ∃ rule directive,
        matchRules? directiveRules text =
            some (rule, directive, more ++ Text.afterFirstLine text) ∧
          ∀ other, Asserts statement other ↔ other = directive := by
  refine ⟨fun stage {text rule directive rest} found => ?_,
    fun {coordinates color allowed text rest} => ?_,
    fun {text statement more} line last noRule => ?_⟩
  · have isRead := (exists_matchRules?_iff stage).1 ⟨rule, found⟩
    obtain ⟨isName, absorbs⟩ := ruleName_of_matchRules?_eq_some found
    obtain ⟨positive, isCut⟩ := cutAt_of_read?_eq_some isRead
    exact ⟨isName, absorbs, positive, firstLine_of_read?_eq_some isRead, isCut⟩
  · refine (exists_matchRules?_iff .directive).trans ?_
    constructor
    · exact fun isRead =>
        ⟨isPixel_of_read?_eq_some isRead, eq_source_append_of_read?_eq_some isRead⟩
    · rintro ⟨isPixel, rfl⟩
      exact read?_of_isPixel isPixel rest
  · obtain ⟨assertion, rfl, assertionLine, afterLine⟩ := exists_eq_assert_append line
    have noPixel := findSome?_pixelRules assertion
    rw [List.findSome?_eq_none_iff.2 noRule] at noPixel
    have isRead : read? .directive ("@assert " ++ assertion) =
        some (ofStatement statement, more ++ Text.afterFirstLine ("@assert " ++ assertion)) := by
      rw [read?, Text.after?_append_self, ← afterLine]
      exact readAssertion?_eq_ofStatement assertionLine last noPixel.symm
    obtain ⟨rule, found⟩ := (exists_matchRules?_iff .directive).2 isRead
    exact ⟨rule, _, found, fun _ => asserts_iff⟩

/-- A comparison with its operator in both sides, and a second statement on its line. -/
theorem matchRules?_parses_comparison :
    Text.firstLine "@assert a == b == c; f(); // d\ng();".toList =
        "@assert " ++ "a == b == c; f()" ++ ";" ++ " // d" ∧
      ';' ∉ Text.chars " // d" ∧
      (∀ rule ∈ pixelRules, rule.find? "@assert a == b == c; f(); // d\ng();".toList = none) ∧
      (∃ rule, rule.name = "equal" ∧
        matchRules? directiveRules "@assert a == b == c; f(); // d\ng();".toList =
          some (rule, .compare "a == b" .equal "c; f()", " // d\ng();".toList)) ∧
      Text.cutAt 25 "@assert a == b == c; f(); // d\ng();".toList =
        ((compare "a == b" .equal "c; f()").source, " // d\ng();".toList) ∧
      Asserts "a == b == c; f()" (.compare "a == b" .equal "c; f()") := by
  have line : Text.firstLine "@assert a == b == c; f(); // d\ng();".toList =
      "@assert " ++ "a == b == c; f()" ++ ";" ++ " // d" := by
    simp only [Text.chars_eq_toList]
    decide +kernel
  have last : ';' ∉ Text.chars " // d" := by simp [Text.chars_eq_toList]
  have noRule : ∀ rule ∈ pixelRules,
      rule.find? "@assert a == b == c; f(); // d\ng();".toList = none := by
    decide +kernel
  have compared : (matchRules? directiveRules "@assert a == b == c; f(); // d\ng();".toList).map
      Prod.snd = some (.compare "a == b" .equal "c; f()", " // d\ng();".toList) := by
    simp only [Text.chars_eq_toList]
    decide +kernel
  obtain ⟨rule, directive, found, asserts⟩ := matchRules?_parses.2.2 line last noRule
  rw [found, Option.map_some] at compared
  obtain ⟨rfl, behind⟩ := Prod.mk.inj (Option.some.inj compared)
  rw [behind] at found
  obtain ⟨isName, -, -, -, isCut⟩ := matchRules?_parses.1 .directive found
  exact ⟨line, last, noRule, ⟨rule, isName, found⟩, isCut, (asserts _).2 rfl⟩

end Directive
end Conformance
