import Conformance.Directive.Rule

/-!
# Reading directives

A directive is read at the beginning of a text, together with what follows it.  Operands reach as
far as they can within the line: those of an assertion end at its last semicolon, and the left
side of a comparison ends at the last occurrence of the operator.

The main statement is that a text that begins with a directive is the directive as it is written,
followed by the rest.
-/

namespace Conformance

open scoped Text

namespace Directive

/-- A nonempty run of decimal digits. -/
def readDigits? (text : List Char) : Option (List Char × List Char) :=
  let digits := text.takeWhile Text.isDecimalDigit
  if digits.isEmpty then none else some (digits, text.dropWhile Text.isDecimalDigit)

/-- Numbers between commas; `commas` tells how many commas there are. -/
def readNumbers? : (commas : Nat) → List Char → Option (List Char × List Char)
  | 0, text => readDigits? text
  | commas + 1, text => do
      let (digits, afterDigits) ← readDigits? text
      let later ← Text.after? "," afterDigits
      let (numbers, rest) ← readNumbers? commas later
      return (digits ++ "," ++ numbers, rest)

/-- The text up to the last semicolon of the line, and what follows the semicolon. -/
def readStatement? (text : List Char) : Option (List Char × List Char) :=
  (Text.splitLast? ";" (Text.firstLine text)).map fun (statement, rest) =>
    (statement, rest ++ Text.afterFirstLine text)

/-- A call with alternatives, after `@nonfinite `. -/
def readNonfinite? (text : List Char) : Option (Directive × List Char) := do
  let callable := text.takeWhile fun character => character != '(' && character != '\n'
  let opened ← Text.after? "(" (text.drop callable.length)
  let arguments := opened.takeWhile fun character => character != ')' && character != '\n'
  let closed ← Text.after? ")" (opened.drop arguments.length)
  if callable.isEmpty then none
  else
    return (.nonfinite callable arguments (Text.firstLine closed), Text.afterFirstLine closed)

/-- The colour and tolerance of a pixel, after its coordinates. -/
def readPixelColor?
    (coordinates : List Char)
    (text : List Char) :
    Option (Directive × List Char) :=
  match Text.after? " == " text with
  | some expected => do
      let (color, afterColor) ← readNumbers? 3 expected
      let rest ← Text.after? ";" afterColor
      return (.pixel coordinates color .exact, rest)
  | none => do
      let expected ← Text.after? " ==~ " text
      let (color, afterColor) ← readNumbers? 3 expected
      match Text.after? ";" afterColor with
      | some rest => return (.pixel coordinates color .configured, rest)
      | none => do
          let afterSign ← Text.after? " +/- " afterColor
          let (amount, afterAmount) ← readDigits? afterSign
          let rest ← Text.after? ";" afterAmount
          return (.pixel coordinates color (.explicit amount), rest)

/-- A pixel assertion, after `@assert pixel `. -/
def readPixel? (text : List Char) : Option (Directive × List Char) := do
  let (coordinates, rest) ← readNumbers? 1 text
  readPixelColor? coordinates rest

/-- Whether a word names an exception code: something followed by `_ERR`. -/
def isErrorName (word : List Char) : Bool :=
  List.isSuffixOf "_ERR" word && decide (4 < word.length)

/-- The directive for a statement that throws.  The code is named by a first word of its own. -/
def ofThrowing (statement : List Char) : Directive :=
  let error := statement.takeWhile fun character => !Text.isBlank character
  match Text.after? " " (statement.drop error.length) with
  | some body => if isErrorName error then .throwsTyped error body else .throws statement
  | none => .throws statement

/-- The directive for an asserted expression: the comparison whose operator occurs in it, if
any. -/
def ofExpression (expression : List Char) : Directive :=
  let comparison? := Comparison.all.findSome? fun comparison =>
    (Text.splitLast? comparison.spaced expression).map fun (left, right) =>
      Directive.compare left comparison right
  comparison?.getD (.truthy expression)

/-- The directive for the statement of an assertion that is not about a pixel. -/
def ofStatement (statement : List Char) : Directive :=
  match Text.after? "throws " statement with
  | some body => ofThrowing body
  | none => ofExpression statement

/-- An assertion, after `@assert `. -/
def readAssertion? (text : List Char) : Option (Directive × List Char) :=
  match (Text.after? "pixel " text).bind readPixel? with
  | some found => some found
  | none => (readStatement? text).map fun (statement, rest) => (ofStatement statement, rest)

/-- The directives without operands. -/
def markers : List Directive :=
  [.manual, .crash, .universalBrowserRead, .todo]

/-- A directive without operands. -/
def readMarker? (text : List Char) : Option (Directive × List Char) :=
  markers.findSome? fun marker => (Text.after? marker.source text).map (marker, ·)

/-- The directive of a stage that the text begins with, and what follows it. -/
def read? (stage : Stage) (text : List Char) : Option (Directive × List Char) :=
  match stage with
  | .expansion => (Text.after? "@nonfinite " text).bind readNonfinite?
  | .directive =>
      match Text.after? "@assert " text with
      | some assertion => readAssertion? assertion
      | none => readMarker? text

theorem eq_of_readDigits?_eq_some
    {text digits rest : List Char}
    (found : readDigits? text = some (digits, rest)) :
    text = digits ++ rest := by
  simp only [readDigits?, Option.ite_none_left_eq_some, Option.some.injEq, Prod.mk.injEq] at found
  obtain ⟨-, rfl, rfl⟩ := found
  exact List.takeWhile_append_dropWhile.symm

theorem eq_of_readNumbers?_eq_some
    {commas : Nat}
    {text numbers rest : List Char}
    (found : readNumbers? commas text = some (numbers, rest)) :
    text = numbers ++ rest := by
  induction commas generalizing text numbers rest with
  | zero => exact eq_of_readDigits?_eq_some found
  | succ commas inductionHypothesis =>
      simp only [readNumbers?, Option.bind_eq_bind, Option.bind_eq_some_iff, Prod.exists,
        Option.pure_def, Option.some.injEq, Prod.mk.injEq] at found
      obtain ⟨digits, afterDigits, first, later, comma, more, after, others, rfl, rfl⟩ := found
      rw [eq_of_readDigits?_eq_some first, Text.after?_eq_some_iff.1 comma,
        inductionHypothesis others]
      simp

theorem eq_of_readStatement?_eq_some
    {text statement rest : List Char}
    (found : readStatement? text = some (statement, rest)) :
    text = statement ++ ";" ++ rest := by
  simp only [readStatement?, Option.map_eq_some_iff, Prod.exists, Prod.mk.injEq] at found
  obtain ⟨before, after, split, rfl, rfl⟩ := found
  have line := Text.eq_of_splitLast?_eq_some split
  have whole := Text.firstLine_append_afterFirstLine text
  rw [line] at whole
  conv => lhs; rw [← whole]
  simp only [List.append_assoc]

/-- A run of accepted characters, dropped by its length, leaves what follows the run. -/
theorem takeWhile_append_drop (accept : Char → Bool) (text : List Char) :
    text.takeWhile accept ++ text.drop (text.takeWhile accept).length = text := by
  conv => rhs; rw [← List.take_append_drop (text.takeWhile accept).length text]
  congr 1
  exact List.prefix_iff_eq_take.1 (List.takeWhile_prefix accept)

theorem eq_of_readNonfinite?_eq_some
    {text rest : List Char}
    {directive : Directive}
    (found : readNonfinite? text = some (directive, rest)) :
    "@nonfinite " ++ text = directive.source ++ rest := by
  simp only [readNonfinite?, Option.bind_eq_bind, Option.bind_eq_some_iff,
    Option.ite_none_left_eq_some, Option.pure_def, Option.some.injEq, Prod.mk.injEq] at found
  obtain ⟨opened, isOpened, closed, isClosed, -, rfl, rfl⟩ := found
  have outer := takeWhile_append_drop (fun character => character != '(' && character != '\n') text
  have inner := takeWhile_append_drop
    (fun character => character != ')' && character != '\n') opened
  rw [Text.after?_eq_some_iff.1 isOpened] at outer
  rw [Text.after?_eq_some_iff.1 isClosed] at inner
  conv => lhs; rw [← outer, ← inner, ← Text.firstLine_append_afterFirstLine closed]
  simp only [source, List.append_assoc]

theorem eq_of_readPixelColor?_eq_some
    {coordinates text rest : List Char}
    {directive : Directive}
    (found : readPixelColor? coordinates text = some (directive, rest)) :
    "@assert pixel " ++ coordinates ++ text = directive.source ++ rest := by
  unfold readPixelColor? at found
  split at found
  · next expected isEqual =>
      simp only [Option.bind_eq_bind, Option.bind_eq_some_iff, Prod.exists, Option.pure_def,
        Option.some.injEq, Prod.mk.injEq] at found
      obtain ⟨color, afterColor, isColor, after, closed, rfl, rfl⟩ := found
      rw [Text.after?_eq_some_iff.1 isEqual, eq_of_readNumbers?_eq_some isColor,
        Text.after?_eq_some_iff.1 closed]
      simp only [source, List.append_assoc]
  · simp only [Option.bind_eq_bind, Option.bind_eq_some_iff, Prod.exists] at found
    obtain ⟨expected, isAlmost, color, afterColor, isColor, found⟩ := found
    rw [Text.after?_eq_some_iff.1 isAlmost, eq_of_readNumbers?_eq_some isColor]
    split at found
    · next after closed =>
        simp only [Option.pure_def, Option.some.injEq, Prod.mk.injEq] at found
        obtain ⟨rfl, rfl⟩ := found
        rw [Text.after?_eq_some_iff.1 closed]
        simp only [source, List.append_assoc]
    · simp only [Option.bind_eq_some_iff, Prod.exists, Option.pure_def, Option.some.injEq,
        Prod.mk.injEq] at found
      obtain ⟨afterSign, isSign, amount, afterAmount, isAmount, after, closed, rfl, rfl⟩ := found
      rw [Text.after?_eq_some_iff.1 isSign, eq_of_readDigits?_eq_some isAmount,
        Text.after?_eq_some_iff.1 closed]
      simp only [source, List.append_assoc]

theorem source_ofThrowing (statement : List Char) :
    (ofThrowing statement).source = "@assert throws " ++ statement ++ ";" := by
  simp only [ofThrowing]
  split
  · next body isBody =>
      split
      · have parts := takeWhile_append_drop (fun character => !Text.isBlank character) statement
        rw [Text.after?_eq_some_iff.1 isBody] at parts
        conv => rhs; rw [← parts]
        simp only [source, List.append_assoc]
      · rfl
  · rfl

theorem source_ofExpression (expression : List Char) :
    (ofExpression expression).source = "@assert " ++ expression ++ ";" := by
  simp only [ofExpression]
  cases found : Comparison.all.findSome? fun comparison =>
      (Text.splitLast? comparison.spaced expression).map fun (left, right) =>
        Directive.compare left comparison right with
  | none => rfl
  | some directive =>
      obtain ⟨comparison, -, split⟩ := List.exists_of_findSome?_eq_some found
      simp only [Option.map_eq_some_iff, Prod.exists] at split
      obtain ⟨left, right, parts, rfl⟩ := split
      have whole := Text.eq_of_splitLast?_eq_some parts
      conv => rhs; rw [whole]
      simp only [Option.getD_some, source, List.append_assoc]

/-- The directive for a statement is the assertion of that statement as it is written. -/
theorem source_ofStatement (statement : List Char) :
    (ofStatement statement).source = "@assert " ++ statement ++ ";" := by
  unfold ofStatement
  split
  · next body isBody =>
      rw [source_ofThrowing, Text.after?_eq_some_iff.1 isBody]
      simp [Text.chars_eq_toList]
  · exact source_ofExpression statement

theorem eq_of_readAssertion?_eq_some
    {text rest : List Char}
    {directive : Directive}
    (found : readAssertion? text = some (directive, rest)) :
    "@assert " ++ text = directive.source ++ rest := by
  unfold readAssertion? at found
  split at found
  · next pixel isPixel =>
      obtain rfl := Option.some.inj found
      obtain ⟨afterPixel, isAfter, isPixel⟩ := Option.bind_eq_some_iff.1 isPixel
      simp only [readPixel?, Option.bind_eq_bind, Option.bind_eq_some_iff, Prod.exists] at isPixel
      obtain ⟨coordinates, afterCoordinates, isCoordinates, isColor⟩ := isPixel
      have whole := eq_of_readPixelColor?_eq_some isColor
      rw [Text.after?_eq_some_iff.1 isAfter, eq_of_readNumbers?_eq_some isCoordinates]
      rw [← whole]
      simp [Text.chars_eq_toList]
  · simp only [Option.map_eq_some_iff, Prod.exists, Prod.mk.injEq] at found
    obtain ⟨statement, after, isStatement, rfl, rfl⟩ := found
    rw [source_ofStatement, eq_of_readStatement?_eq_some isStatement]
    simp only [List.append_assoc]

theorem eq_of_readMarker?_eq_some
    {text rest : List Char}
    {directive : Directive}
    (found : readMarker? text = some (directive, rest)) :
    text = directive.source ++ rest := by
  obtain ⟨marker, -, isMarker⟩ := List.exists_of_findSome?_eq_some found
  simp only [Option.map_eq_some_iff, Prod.mk.injEq] at isMarker
  obtain ⟨after, isAfter, rfl, rfl⟩ := isMarker
  exact Text.after?_eq_some_iff.1 isAfter

/-- A text that begins with a directive is the directive as it is written, and the rest. -/
theorem eq_source_append_of_read?_eq_some
    {stage : Stage}
    {text rest : List Char}
    {directive : Directive}
    (found : read? stage text = some (directive, rest)) :
    text = directive.source ++ rest := by
  unfold read? at found
  split at found
  · obtain ⟨call, isCall, found⟩ := Option.bind_eq_some_iff.1 found
    rw [Text.after?_eq_some_iff.1 isCall]
    exact eq_of_readNonfinite?_eq_some found
  · split at found
    · next assertion isAssertion =>
        rw [Text.after?_eq_some_iff.1 isAssertion]
        exact eq_of_readAssertion?_eq_some found
    · exact eq_of_readMarker?_eq_some found

/-- What follows a directive is shorter than the text. -/
theorem length_lt_of_read?_eq_some
    {stage : Stage}
    {text rest : List Char}
    {directive : Directive}
    (found : read? stage text = some (directive, rest)) :
    rest.length < text.length := by
  rw [eq_source_append_of_read?_eq_some found, List.length_append]
  have positive := List.length_pos_iff.2 directive.source_ne_nil
  omega

end Directive

end Conformance
