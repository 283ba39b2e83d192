import Conformance.Proofs.Directive.Lines
import Conformance.Proofs.Text.Boundary
import Conformance.Proofs.Text.Occurrence

/-!
# The grammar of directives

What is read as a directive is the directive as it is written, on its line.  Pixel assertions are
read exactly by their grammar.  Any other assertion reaches to the last semicolon of its line, and
its statement decides what it asserts: an exception, or the comparison whose operator is the first
of all that occur, split where the operator occurs last.
-/

namespace Conformance
namespace Directive

open scoped Text

/-! ## Pixels -/

/-- A nonempty run of decimal digits. -/
structure IsNumber (text : List Char) : Prop where
  nonempty : text ≠ []
  digits : ∀ character ∈ text, Text.isDecimalDigit character = true

/-- Numbers with as many commas between them. -/
inductive IsNumbers : (commas : Nat) → List Char → Prop
  | one {number : List Char} (isNumber : IsNumber number) : IsNumbers 0 number
  | more
      {commas : Nat}
      {number numbers : List Char}
      (isNumber : IsNumber number)
      (others : IsNumbers commas numbers) :
      IsNumbers (commas + 1) (number ++ "," ++ numbers)

/-- A pixel assertion with numbers where the grammar asks for them. -/
def IsPixel : Directive → Prop
  | .pixel coordinates color allowed =>
      IsNumbers 1 coordinates ∧ IsNumbers 3 color ∧
        ∀ amount, allowed = .explicit amount → IsNumber amount
  | _ => False

/-- No number goes on at the beginning of the text. -/
def EndsNumber (text : List Char) : Prop :=
  ∀ character ∈ text.head?, Text.isDecimalDigit character = false

theorem IsNumbers.digit_or_comma
    {commas : Nat}
    {numbers : List Char}
    (isNumbers : IsNumbers commas numbers)
    {character : Char}
    (member : character ∈ numbers) :
    Text.isDecimalDigit character = true ∨ character = ',' := by
  induction isNumbers with
  | one isNumber => exact .inl (isNumber.digits character member)
  | more isNumber others inductionHypothesis =>
      simp only [Text.chars_eq_toList, List.append_assoc, List.mem_append] at member
      rcases member with inNumber | isComma | inOthers
      · exact .inl (isNumber.digits character inNumber)
      · exact .inr (by simpa using isComma)
      · exact inductionHypothesis inOthers

theorem isNumber_of_readDigits?_eq_some
    {text digits rest : List Char}
    (found : readDigits? text = some (digits, rest)) :
    IsNumber digits := by
  simp only [readDigits?, Option.ite_none_left_eq_some, Option.some.injEq, Prod.mk.injEq] at found
  obtain ⟨nonempty, rfl, rfl⟩ := found
  exact ⟨by simpa using nonempty, fun character member =>
    List.all_eq_true.1 List.all_takeWhile character member⟩

theorem readDigits?_append
    {digits rest : List Char}
    (isNumber : IsNumber digits)
    (ends : EndsNumber rest) :
    readDigits? (digits ++ rest) = some (digits, rest) := by
  have stops : rest.takeWhile Text.isDecimalDigit = [] ∧
      rest.dropWhile Text.isDecimalDigit = rest := by
    cases rest with
    | nil => exact ⟨rfl, rfl⟩
    | cons character rest =>
        have isEnd := ends character rfl
        simp [isEnd]
  rw [readDigits?, List.takeWhile_append_of_pos isNumber.digits, stops.1, List.append_nil,
    List.dropWhile_append_of_pos isNumber.digits, stops.2]
  simp [isNumber.nonempty]

theorem isNumbers_of_readNumbers?_eq_some
    {commas : Nat}
    {text numbers rest : List Char}
    (found : readNumbers? commas text = some (numbers, rest)) :
    IsNumbers commas numbers := by
  induction commas generalizing text numbers rest with
  | zero => exact .one (isNumber_of_readDigits?_eq_some found)
  | succ commas inductionHypothesis =>
      simp only [readNumbers?, Option.bind_eq_bind, Option.bind_eq_some_iff, Prod.exists,
        Option.pure_def, Option.some.injEq, Prod.mk.injEq] at found
      obtain ⟨digits, afterDigits, first, later, comma, more, after, others, rfl, rfl⟩ := found
      exact .more (isNumber_of_readDigits?_eq_some first) (inductionHypothesis others)

theorem readNumbers?_append
    {commas : Nat}
    {numbers rest : List Char}
    (isNumbers : IsNumbers commas numbers)
    (ends : EndsNumber rest) :
    readNumbers? commas (numbers ++ rest) = some (numbers, rest) := by
  induction isNumbers with
  | one isNumber => exact readDigits?_append isNumber ends
  | @more commas number numbers isNumber others inductionHypothesis =>
      have comma : EndsNumber ("," ++ (numbers ++ rest)) := by
        intro character isFirst
        obtain rfl : ',' = character := by simpa [Text.chars_eq_toList] using isFirst
        decide
      simp [readNumbers?, readDigits?_append isNumber comma, Text.after?_append_self,
        inductionHypothesis]

theorem isPixel_of_readPixelColor?_eq_some
    {coordinates text rest : List Char}
    {directive : Directive}
    (isCoordinates : IsNumbers 1 coordinates)
    (found : readPixelColor? coordinates text = some (directive, rest)) :
    directive.IsPixel := by
  unfold readPixelColor? at found
  split at found
  · simp only [Option.bind_eq_bind, Option.bind_eq_some_iff, Prod.exists, Option.pure_def,
      Option.some.injEq, Prod.mk.injEq] at found
    obtain ⟨color, afterColor, isColor, after, closed, rfl, rfl⟩ := found
    exact ⟨isCoordinates, isNumbers_of_readNumbers?_eq_some isColor, fun _ other => nomatch other⟩
  · simp only [Option.bind_eq_bind, Option.bind_eq_some_iff, Prod.exists] at found
    obtain ⟨expected, isAlmost, color, afterColor, isColor, found⟩ := found
    have colorNumbers := isNumbers_of_readNumbers?_eq_some isColor
    split at found
    · simp only [Option.pure_def, Option.some.injEq, Prod.mk.injEq] at found
      obtain ⟨rfl, rfl⟩ := found
      exact ⟨isCoordinates, colorNumbers, fun _ other => nomatch other⟩
    · simp only [Option.bind_eq_some_iff, Prod.exists, Option.pure_def, Option.some.injEq,
        Prod.mk.injEq] at found
      obtain ⟨afterSign, isSign, amount, afterAmount, isAmount, after, closed, rfl, rfl⟩ := found
      refine ⟨isCoordinates, colorNumbers, ?_⟩
      rintro _ ⟨⟩
      exact isNumber_of_readDigits?_eq_some isAmount

theorem isPixel_of_readPixel?_eq_some
    {text rest : List Char}
    {directive : Directive}
    (found : readPixel? text = some (directive, rest)) :
    directive.IsPixel := by
  simp only [readPixel?, Option.bind_eq_bind, Option.bind_eq_some_iff, Prod.exists] at found
  obtain ⟨coordinates, afterCoordinates, isCoordinates, isColor⟩ := found
  exact isPixel_of_readPixelColor?_eq_some (isNumbers_of_readNumbers?_eq_some isCoordinates) isColor

theorem endsNumber_chars_append
    {character : Char}
    {characters : List Char}
    (isEnd : Text.isDecimalDigit character = false)
    (rest : List Char) :
    EndsNumber (Text.chars (String.ofList (character :: characters)) ++ rest) := by
  rw [Text.chars_ofList]
  rintro _ ⟨⟩
  exact isEnd

/-- What stands behind the coordinates of a pixel as it is written. -/
def colorSource (color : List Char) : Tolerance → List Char
  | .exact => " == " ++ color ++ ";"
  | .configured => " ==~ " ++ color ++ ";"
  | .explicit amount => " ==~ " ++ color ++ " +/- " ++ amount ++ ";"

theorem source_pixel (coordinates color : List Char) (allowed : Tolerance) :
    (pixel coordinates color allowed).source =
      "@assert " ++ ("pixel " ++ (coordinates ++ colorSource color allowed)) := by
  cases allowed <;> simp [source, colorSource, Text.chars_eq_toList]

theorem readPixelColor?_colorSource_append
    {color : List Char}
    {allowed : Tolerance}
    (isColor : IsNumbers 3 color)
    (isAmount : ∀ amount, allowed = .explicit amount → IsNumber amount)
    (coordinates rest : List Char) :
    readPixelColor? coordinates (colorSource color allowed ++ rest) =
      some (.pixel coordinates color allowed, rest) := by
  have notExact : ∀ others : List Char, Text.after? " == " (" ==~ " ++ others) = none := by
    intro others
    simp [Text.chars_eq_toList, Text.after?]
  have closing : EndsNumber (";" ++ rest) := endsNumber_chars_append (by decide) rest
  cases allowed with
  | exact =>
      simp [colorSource, readPixelColor?, Text.after?_append_self,
        readNumbers?_append isColor closing]
  | configured =>
      simp [colorSource, readPixelColor?, notExact, Text.after?_append_self,
        readNumbers?_append isColor closing]
  | explicit amount =>
      have notClosed : ∀ others : List Char, Text.after? ";" (" +/- " ++ others) = none := by
        intro others
        simp [Text.chars_eq_toList, Text.after?]
      have sign : EndsNumber (" +/- " ++ (amount ++ (";" ++ rest))) :=
        endsNumber_chars_append (by decide) _
      simp [colorSource, readPixelColor?, notExact, notClosed, Text.after?_append_self,
        readNumbers?_append isColor sign, readDigits?_append (isAmount amount rfl) closing]

theorem endsNumber_colorSource_append (color : List Char) (allowed : Tolerance) (rest : List Char) :
    EndsNumber (colorSource color allowed ++ rest) := by
  cases allowed <;> simp only [colorSource, List.append_assoc] <;>
    exact endsNumber_chars_append (by decide) _

/-- A pixel assertion is read, whatever stands behind it. -/
theorem read?_of_isPixel
    {directive : Directive}
    (isPixel : directive.IsPixel)
    (rest : List Char) :
    read? .directive (directive.source ++ rest) = some (directive, rest) := by
  cases directive with
  | pixel coordinates color allowed =>
      obtain ⟨isCoordinates, isColor, isAmount⟩ := isPixel
      have ends := endsNumber_colorSource_append color allowed rest
      simp [source_pixel, read?, readAssertion?, readPixel?, Text.after?_append_self,
        readNumbers?_append isCoordinates ends,
        readPixelColor?_colorSource_append isColor isAmount]
  | _ => exact isPixel.elim

/-! ## Statements -/

/-- A word that names an exception code: it holds no blank, and something stands before `_ERR`. -/
structure IsErrorWord (word : List Char) : Prop where
  noBlank : ∀ character ∈ word, Text.isBlank character = false
  named : ∃ front : List Char, front ≠ [] ∧ word = front ++ "_ERR"

/-- What the statement of an assertion that is not about a pixel asserts. -/
inductive Asserts : List Char → Directive → Prop
  | throwsTyped
      {word statement : List Char}
      (isErrorWord : IsErrorWord word) :
      Asserts ("throws " ++ (word ++ " " ++ statement)) (.throwsTyped word statement)
  | throws
      {statement : List Char}
      (untyped : ∀ word rest, IsErrorWord word → statement ≠ word ++ " " ++ rest) :
      Asserts ("throws " ++ statement) (.throws statement)
  /-- No operator that is looked for earlier occurs. -/
  | compare
      {statement left right : List Char}
      {comparison : Comparison}
      {earlier later : List Comparison}
      (notThrows : ¬ Text.chars "throws " <+: statement)
      (order : [.same, .different, .equal, .matches] = earlier ++ comparison :: later)
      (absent : ∀ other ∈ earlier, ¬ other.spaced <:+: statement)
      (found : Text.IsLastOccurrence comparison.spaced statement left right) :
      Asserts statement (.compare left comparison right)
  | truthy
      {statement : List Char}
      (notThrows : ¬ Text.chars "throws " <+: statement)
      (absent : ∀ comparison : Comparison, ¬ comparison.spaced <:+: statement) :
      Asserts statement (.truthy statement)

theorem isErrorName_iff (word : List Char) :
    isErrorName word = true ↔ ∃ front : List Char, front ≠ [] ∧ word = front ++ "_ERR" := by
  have four : (Text.chars "_ERR").length = 4 := by simp [Text.chars_eq_toList]
  rw [isErrorName, Bool.and_eq_true, List.isSuffixOf_iff_suffix, decide_eq_true_iff]
  constructor
  · rintro ⟨⟨front, rfl⟩, longer⟩
    refine ⟨front, ?_, rfl⟩
    rintro rfl
    simp [four] at longer
  · rintro ⟨front, nonempty, rfl⟩
    have positive := List.length_pos_iff.2 nonempty
    exact ⟨List.suffix_append _ _, by rw [List.length_append, four]; omega⟩

/-- A word ends where a blank follows. -/
theorem takeWhile_word_append
    {word : List Char}
    (noBlank : ∀ character ∈ word, Text.isBlank character = false)
    (rest : List Char) :
    (word ++ " " ++ rest).takeWhile (fun character => !Text.isBlank character) = word := by
  have space : Text.isBlank ' ' = true := by decide
  rw [List.append_assoc, List.takeWhile_append_of_pos (by simpa using noBlank)]
  simp [Text.chars_eq_toList, space]

theorem ofThrowing_of_isErrorWord
    {word : List Char}
    (isErrorWord : IsErrorWord word)
    (statement : List Char) :
    ofThrowing (word ++ " " ++ statement) = .throwsTyped word statement := by
  have isName := (isErrorName_iff word).2 isErrorWord.named
  simp only [ofThrowing, takeWhile_word_append isErrorWord.noBlank]
  simp [Text.after?_append_self, isName]

theorem ofThrowing_of_untyped
    {statement : List Char}
    (untyped : ∀ word rest, IsErrorWord word → statement ≠ word ++ " " ++ rest) :
    ofThrowing statement = .throws statement := by
  simp only [ofThrowing]
  split
  · next body isBody =>
      refine if_neg fun isName => ?_
      have parts := takeWhile_append_drop (fun character => !Text.isBlank character) statement
      rw [Text.after?_eq_some_iff.1 isBody, ← List.append_assoc] at parts
      refine untyped _ body ⟨fun character member => ?_, (isErrorName_iff _).1 isName⟩ parts.symm
      simpa using List.all_eq_true.1 List.all_takeWhile character member
  · rfl

/-- A statement that throws names a code exactly if it begins with an error word. -/
theorem asserts_ofThrowing (statement : List Char) :
    Asserts ("throws " ++ statement) (ofThrowing statement) := by
  by_cases typed : ∃ word rest, IsErrorWord word ∧ statement = word ++ " " ++ rest
  · obtain ⟨word, rest, isErrorWord, rfl⟩ := typed
    rw [ofThrowing_of_isErrorWord isErrorWord]
    exact .throwsTyped isErrorWord
  · have untyped : ∀ word rest, IsErrorWord word → statement ≠ word ++ " " ++ rest :=
      fun word rest isErrorWord same => typed ⟨word, rest, isErrorWord, same⟩
    rw [ofThrowing_of_untyped untyped]
    exact .throws untyped

/-- The first operator that occurs decides. -/
theorem ofExpression_eq_compare
    {statement left right : List Char}
    {comparison : Comparison}
    {earlier later : List Comparison}
    (order : Comparison.all = earlier ++ comparison :: later)
    (absent : ∀ other ∈ earlier, ¬ other.spaced <:+: statement)
    (found : Text.splitLast? comparison.spaced statement = some (left, right)) :
    ofExpression statement = .compare left comparison right := by
  rw [ofExpression, order, List.findSome?_append, List.findSome?_eq_none_iff.2,
    List.findSome?_cons, found]
  · rfl
  · intro other member
    rw [Text.splitLast?_eq_none_iff.2 (absent other member)]
    rfl

theorem ofExpression_eq_truthy
    {statement : List Char}
    (absent : ∀ comparison : Comparison, ¬ comparison.spaced <:+: statement) :
    ofExpression statement = .truthy statement := by
  rw [ofExpression, List.findSome?_eq_none_iff.2]
  · rfl
  · intro comparison _
    rw [Text.splitLast?_eq_none_iff.2 (absent comparison)]
    rfl

theorem asserts_ofExpression
    {statement : List Char}
    (notThrows : ¬ Text.chars "throws " <+: statement) :
    Asserts statement (ofExpression statement) := by
  by_cases occurs : ∃ comparison : Comparison, comparison.spaced <:+: statement
  · have member : ∃ comparison ∈ Comparison.all,
        decide (comparison.spaced <:+: statement) = true := by
      obtain ⟨comparison, inside⟩ := occurs
      exact ⟨comparison, by cases comparison <;> decide, decide_eq_true inside⟩
    obtain ⟨comparison, isFirst⟩ := Option.isSome_iff_exists.1 (List.find?_isSome.2 member)
    obtain ⟨inside, earlier, later, order, absent⟩ := List.find?_eq_some_iff_append.1 isFirst
    have absentEarlier : ∀ other ∈ earlier, ¬ other.spaced <:+: statement := by
      simpa using absent
    cases found : Text.splitLast? comparison.spaced statement with
    | none => exact absurd (of_decide_eq_true inside) (Text.splitLast?_eq_none_iff.1 found)
    | some parts =>
        rw [ofExpression_eq_compare order absentEarlier found]
        exact .compare notThrows order absentEarlier (Text.splitLast?_eq_some_iff.1 found)
  · rw [not_exists] at occurs
    rw [ofExpression_eq_truthy occurs]
    exact .truthy notThrows occurs

theorem asserts_ofStatement (statement : List Char) :
    Asserts statement (ofStatement statement) := by
  rw [ofStatement]
  split
  · next body isBody =>
      rw [Text.after?_eq_some_iff.1 isBody]
      exact asserts_ofThrowing body
  · next absent => exact asserts_ofExpression (Text.after?_eq_none_iff.1 absent)

theorem ofStatement_eq_ofExpression
    {statement : List Char}
    (notThrows : ¬ Text.chars "throws " <+: statement) :
    ofStatement statement = ofExpression statement := by
  rw [ofStatement, Text.after?_eq_none_iff.2 notThrows]

/-- The statement decides what is asserted. -/
theorem asserts_iff {statement : List Char} {directive : Directive} :
    Asserts statement directive ↔ directive = ofStatement statement := by
  refine ⟨fun asserts => ?_, fun same => same ▸ asserts_ofStatement statement⟩
  cases asserts with
  | throwsTyped isErrorWord =>
      rw [ofStatement, Text.after?_append_self]
      exact (ofThrowing_of_isErrorWord isErrorWord _).symm
  | @throws body untyped =>
      rw [ofStatement, Text.after?_append_self]
      exact (ofThrowing_of_untyped untyped).symm
  | compare notThrows order absent found =>
      rw [ofStatement_eq_ofExpression notThrows]
      exact (ofExpression_eq_compare order absent (Text.splitLast?_eq_some_iff.2 found)).symm
  | truthy notThrows absent =>
      rw [ofStatement_eq_ofExpression notThrows]
      exact (ofExpression_eq_truthy absent).symm

/-! ## Reading -/

/-- What is read is a pixel, the assertion of a statement, or a directive without operands. -/
theorem isPixel_or_of_read?_eq_some
    {text rest : List Char}
    {directive : Directive}
    (found : read? .directive text = some (directive, rest)) :
    directive.IsPixel ∨ (∃ statement, directive = ofStatement statement) ∨ directive ∈ markers := by
  simp only [read?] at found
  split at found
  · next assertion isAssertion =>
      rw [readAssertion?] at found
      split at found
      · next item isItem =>
          rw [found] at isItem
          obtain ⟨afterPixel, -, isPixel⟩ := Option.bind_eq_some_iff.1 isItem
          exact .inl (isPixel_of_readPixel?_eq_some isPixel)
      · simp only [Option.map_eq_some_iff, Prod.mk.injEq] at found
        obtain ⟨⟨statement, after⟩, -, same, -⟩ := found
        exact .inr (.inl ⟨statement, same.symm⟩)
  · obtain ⟨marker, member, isMarker⟩ := List.exists_of_findSome?_eq_some found
    simp only [Option.map_eq_some_iff, Prod.mk.injEq] at isMarker
    obtain ⟨-, -, rfl, -⟩ := isMarker
    exact .inr (.inr member)

/-- A pixel is read only by its grammar. -/
theorem isPixel_of_read?_eq_some
    {text rest coordinates color : List Char}
    {allowed : Tolerance}
    (found : read? .directive text = some (.pixel coordinates color allowed, rest)) :
    (pixel coordinates color allowed).IsPixel := by
  obtain isPixel | ⟨statement, same⟩ | member := isPixel_or_of_read?_eq_some found
  · exact isPixel
  · exact nomatch same ▸ asserts_ofStatement statement
  · simp [markers] at member

/-- The last semicolon of the line ends the statement. -/
theorem readStatement?_of_firstLine_eq
    {text statement more : List Char}
    (line : Text.firstLine text = statement ++ ";" ++ more)
    (last : ';' ∉ more) :
    readStatement? text = some (statement, more ++ Text.afterFirstLine text) := by
  have isLast : Text.IsLastOccurrence ";" (Text.firstLine text) statement more := by
    rw [line, List.append_assoc]
    simpa [Text.chars_eq_toList] using Text.isLastOccurrence_of_not_mem last
  rw [readStatement?, Text.splitLast?_eq_some_iff.2 isLast]
  rfl

/-- Behind its keyword an assertion that is not about a pixel is read up to the last semicolon of
the line. -/
theorem readAssertion?_eq_ofStatement
    {text statement more : List Char}
    (line : Text.firstLine text = statement ++ ";" ++ more)
    (last : ';' ∉ more)
    (noPixel : (Text.after? "pixel " text).bind readPixel? = none) :
    readAssertion? text = some (ofStatement statement, more ++ Text.afterFirstLine text) := by
  rw [readAssertion?, noPixel, readStatement?_of_firstLine_eq line last]
  rfl

theorem exists_eq_assert_append
    {text statement more : List Char}
    (line : Text.firstLine text = "@assert " ++ statement ++ ";" ++ more) :
    ∃ assertion, text = "@assert " ++ assertion ∧
      Text.firstLine assertion = statement ++ ";" ++ more ∧
      Text.afterFirstLine assertion = Text.afterFirstLine text := by
  have keyword : '\n' ∉ Text.chars "@assert " := by simp [Text.chars_eq_toList]
  obtain ⟨assertion, rfl⟩ : ∃ assertion, text = "@assert " ++ assertion := by
    refine ⟨statement ++ ";" ++ more ++ Text.afterFirstLine text, ?_⟩
    conv => lhs; rw [← Text.firstLine_append_afterFirstLine text, line]
    simp only [List.append_assoc]
  refine ⟨assertion, rfl, ?_, (Text.afterFirstLine_append keyword _).symm⟩
  rw [Text.firstLine_append keyword, List.append_assoc, List.append_assoc] at line
  rw [List.append_assoc]
  exact List.append_cancel_left line

/-- An assertion that is not about a pixel is read up to the last semicolon of its line. -/
theorem read?_eq_ofStatement
    {text statement more : List Char}
    (line : Text.firstLine text = "@assert " ++ statement ++ ";" ++ more)
    (last : ';' ∉ more)
    (notPixel : ∀ pixel : Directive, pixel.IsPixel → ¬ pixel.source <+: text) :
    read? .directive text =
      some (ofStatement statement, more ++ Text.afterFirstLine text) := by
  obtain ⟨assertion, rfl, assertionLine, afterLine⟩ := exists_eq_assert_append line
  have noPixel : (Text.after? "pixel " assertion).bind readPixel? = none := by
    cases found : (Text.after? "pixel " assertion).bind readPixel? with
    | none => rfl
    | some item =>
        obtain ⟨directive, rest⟩ := item
        have isRead : read? .directive ("@assert " ++ assertion) = some (directive, rest) := by
          simp [read?, Text.after?_append_self, readAssertion?, found]
        obtain ⟨afterPixel, -, isPixel⟩ := Option.bind_eq_some_iff.1 found
        exact absurd ⟨rest, (eq_source_append_of_read?_eq_some isRead).symm⟩
          (notPixel directive (isPixel_of_readPixel?_eq_some isPixel))
  rw [read?, Text.after?_append_self, ← afterLine]
  exact readAssertion?_eq_ofStatement assertionLine last noPixel

/-- What is read is written on the first line, and nothing of it is lost. -/
theorem firstLine_of_read?_eq_some
    {stage : Stage}
    {text rest : List Char}
    {directive : Directive}
    (found : read? stage text = some (directive, rest)) :
    directive.source <+: Text.firstLine text := by
  rw [eq_source_append_of_read?_eq_some found,
    Text.firstLine_append (noBreak_source_of_read?_eq_some found)]
  exact List.prefix_append _ _

/-- A directive takes exactly the part of the text that it is written as. -/
theorem cutAt_of_read?_eq_some
    {stage : Stage}
    {text rest : List Char}
    {directive : Directive}
    (found : read? stage text = some (directive, rest)) :
    1 ≤ Text.byteSize text - Text.byteSize rest ∧
      Text.cutAt (Text.byteSize text - Text.byteSize rest) text = (directive.source, rest) := by
  have whole := eq_source_append_of_read?_eq_some found
  have size : Text.byteSize text - Text.byteSize rest = Text.byteSize directive.source := by
    rw [whole, Text.byteSize_append, Nat.add_sub_cancel]
  constructor
  · rw [size, Nat.one_le_iff_ne_zero, Ne, Text.byteSize_eq_zero_iff]
    exact directive.source_ne_nil
  · rw [size, whole, Text.cutAt_byteSize_append]

/-! ## What follows a directive -/

variable {directive : Directive} {more : List Char}

theorem exists_source_eq_append_semicolon (isPixel : directive.IsPixel) :
    ∃ front : List Char, directive.source = front ++ ";" := by
  cases directive with
  | pixel coordinates color allowed => cases allowed <;> exact ⟨_, rfl⟩
  | _ => exact isPixel.elim

/-- Code without semicolons does not make a directive in front of it begin with a pixel. -/
theorem not_source_prefix_append
    (notPixel : ¬ directive.IsPixel)
    (isRead : read? .directive directive.source = some (directive, []))
    (noSemicolon : ';' ∉ more)
    {pixel : Directive}
    (isPixel : pixel.IsPixel) :
    ¬ pixel.source <+: directive.source ++ more := by
  have notInside : ¬ pixel.source <+: directive.source := by
    rintro ⟨rest, parts⟩
    rw [← parts, read?_of_isPixel isPixel] at isRead
    obtain ⟨rfl, -⟩ := Prod.mk.inj (Option.some.inj isRead)
    exact notPixel isPixel
  intro begins
  obtain inside | ⟨beyond, parts⟩ :=
    List.prefix_or_prefix_of_prefix begins (List.prefix_append directive.source more)
  · exact notInside inside
  · -- the pixel reaches beyond the directive, and ends there with its semicolon
    obtain ⟨front, ends⟩ := exists_source_eq_append_semicolon isPixel
    rw [← parts, List.prefix_append_right_inj] at begins
    rcases List.eq_nil_or_concat beyond with rfl | ⟨others, last, rfl⟩
    · exact notInside ⟨[], by simpa using parts.symm⟩
    · rw [ends, List.concat_eq_append, ← List.append_assoc] at parts
      have semicolon : Text.chars ";" = [';'] := by simp [Text.chars_eq_toList]
      obtain ⟨-, same⟩ := List.append_inj' parts (by simp [semicolon])
      obtain rfl : last = ';' := by simpa [semicolon] using same
      exact noSemicolon (begins.subset (by simp))

theorem read?_source_append_of_mem_markers (member : directive ∈ markers) (more : List Char) :
    read? .directive (directive.source ++ more) = some (directive, more) := by
  simp only [markers, List.mem_cons, List.not_mem_nil, or_false] at member
  rcases member with rfl | rfl | rfl | rfl
  all_goals simp [read?, readMarker?, markers, source, Text.chars_eq_toList, Text.after?]

/-- A directive is read as such in front of code without semicolons on its line. -/
theorem read?_source_append
    (isRead : read? .directive directive.source = some (directive, []))
    (noSemicolon : ';' ∉ more)
    (noBreak : '\n' ∉ more) :
    read? .directive (directive.source ++ more) = some (directive, more) := by
  by_cases isPixel : directive.IsPixel
  · exact read?_of_isPixel isPixel more
  · obtain ⟨statement, isStatement⟩ | member :=
      (isPixel_or_of_read?_eq_some isRead).resolve_left isPixel
    · have oneLine : '\n' ∉ directive.source ++ more := by
        rw [List.mem_append, not_or]
        exact ⟨noBreak_source_of_read?_eq_some isRead, noBreak⟩
      have line : Text.firstLine (directive.source ++ more) =
          "@assert " ++ statement ++ ";" ++ more := by
        rw [Text.firstLine_eq_self oneLine, isStatement, source_ofStatement]
      have found := read?_eq_ofStatement line noSemicolon fun pixel =>
        not_source_prefix_append isPixel isRead noSemicolon
      rw [found, Text.afterFirstLine_eq_nil oneLine, ← isStatement, List.append_nil]
    · exact read?_source_append_of_mem_markers member more

end Directive
end Conformance
