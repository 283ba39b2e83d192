import Conformance.Proofs.Directive.Grammar
import Conformance.Proofs.Directive.Operands

/-!
# The calls of assertions

Embedded code checks a pixel, a comparison or an expression by a single call on one line.  A call
of another name stands for it where the assertion is known to fail.  The check of a pixel holds no
semicolon but its last character; the operands of other assertions are written as they are.
-/

namespace Conformance

open scoped Text

variable {tolerance : Nat}

namespace Directive

variable {directive : Directive}

/-- Whether the embedded code of the directive is a call that can be known to fail. -/
def isCall : Directive → Bool
  | .pixel .. => true
  | .compare .. => true
  | .truthy _ => true
  | _ => false

/-- The embedded code of an assertion that is known to fail: the call has another name. -/
def embeddedFailing (tolerance : Nat) (directive : Directive) : List Char :=
  let code := directive.embedded tolerance
  match Text.after? "ok(" code, Text.after? "isPixel(" code with
  | some arguments, _ => "todo(" ++ arguments
  | none, some arguments => "todo_isPixel(" ++ arguments
  | none, none => code

/-- What a statement begins with that takes the mark behind the directive. -/
def keywords : Directive → List (List Char)
  | .pixel .. => ["ok", "is"]
  | _ => ["ok"]

theorem isRewritten_of_isCall (isCall : directive.isCall = true) :
    directive.isRewritten = true := by
  cases directive <;> first | rfl | cases isCall

/-! ## The calls of assertions -/

/-- The embedded code of the directive is a call that begins with the keyword, and has another
beginning where it is known to fail. -/
structure IsMarkable
    (keyword renamed operands : List Char)
    (tolerance : Nat)
    (directive : Directive) : Prop where
  code : directive.embedded tolerance = keyword ++ operands ++ ";"
  failing : directive.embeddedFailing tolerance = renamed ++ operands ++ ";"
  noBreak : '\n' ∉ operands

theorem unmarked_embeddedFailing (unmarked : '@' ∉ directive.embedded tolerance) :
    '@' ∉ directive.embeddedFailing tolerance := by
  simp only [embeddedFailing]
  split
  · next arguments _ isCall =>
      rw [Text.after?_eq_some_iff.1 isCall, List.mem_append, not_or] at unmarked
      simp [Text.chars_eq_toList, unmarked.2]
  · next arguments _ isCall =>
      rw [Text.after?_eq_some_iff.1 isCall, List.mem_append, not_or] at unmarked
      simp [Text.chars_eq_toList, unmarked.2]
  · exact unmarked

theorem isMarkable_of_check
    {arguments : List Char}
    (code : directive.embedded tolerance = "ok(" ++ arguments ++ ");")
    (noBreak : '\n' ∉ arguments) :
    IsMarkable "ok" "todo" ("(" ++ arguments ++ ")") tolerance directive where
  code := by simp [code, Text.chars_eq_toList]
  failing := by
    rw [embeddedFailing, code, List.append_assoc, Text.after?_append_self]
    simp [Text.chars_eq_toList]
  noBreak := by simp [Text.chars_eq_toList, noBreak]

theorem noBreak_escape {text : List Char} (noBreak : '\n' ∉ text) : '\n' ∉ Message.escape text :=
  mt (Message.mem_escape_iff_of_ordinary (by decide) text).1 noBreak

theorem exists_isMarkable_of_embeddedCheck
    {expression : List Char}
    (code : directive.embedded tolerance = embeddedCheck expression)
    (noBreak : '\n' ∉ expression) :
    ∃ operands, IsMarkable "ok" "todo" operands tolerance directive := by
  refine ⟨_, isMarkable_of_check
    (show _ = "ok(" ++ (expression ++ ", " ++ quoted expression) ++ ");" from ?_) ?_⟩
  · simp [code, embeddedCheck]
  · simp [Text.chars_eq_toList, quoted, noBreak, noBreak_escape noBreak]

theorem exists_isMarkable_of_embeddedMatch
    {subject pattern : List Char}
    (code : directive.embedded tolerance = embeddedMatch subject pattern)
    (noBreakSubject : '\n' ∉ subject)
    (noBreakPattern : '\n' ∉ pattern) :
    ∃ operands, IsMarkable "ok" "todo" operands tolerance directive := by
  refine ⟨_, isMarkable_of_check
    (show _ = "ok(" ++ (subject ++ ".match(" ++ pattern ++ "), \"" ++ Message.escape subject ++
      ".match(" ++ Message.escape pattern ++ ")\"") ++ ");" from ?_) ?_⟩
  · simp [code, embeddedMatch, Text.chars_eq_toList]
  · simp [Text.chars_eq_toList, noBreakSubject, noBreakPattern, noBreak_escape noBreakSubject,
      noBreak_escape noBreakPattern]

/-- A comparison or an expression is checked by a call of `ok`. -/
theorem exists_isMarkable_of_not_isPixel
    (notPixel : ¬ directive.IsPixel)
    (isCall : directive.isCall = true)
    (isRead : read? .directive directive.source = some (directive, []))
    (tolerance : Nat) :
    ∃ operands, IsMarkable "ok" "todo" operands tolerance directive := by
  have noBreak := noBreak_source_of_read?_eq_some isRead
  cases directive with
  | pixel coordinates color allowed => exact absurd (isPixel_of_read?_eq_some isRead) notPixel
  | truthy expression =>
      simp only [source, List.mem_append, not_or] at noBreak
      exact exists_isMarkable_of_embeddedCheck rfl noBreak.1.2
  | compare left comparison right =>
      have whole : '\n' ∉ left ++ comparison.spaced ++ right := by
        simp only [source, List.mem_append, not_or] at noBreak ⊢
        exact ⟨⟨noBreak.1.1.1.2, noBreak.1.1.2⟩, noBreak.1.2⟩
      rcases embeddedComparison_cases left comparison right with
        ⟨subject, pattern, isMatch, parts⟩ | isCheck
      · rw [parts, List.mem_append, List.mem_append, not_or, not_or] at whole
        exact exists_isMarkable_of_embeddedMatch isMatch whole.1.1 whole.2
      · exact exists_isMarkable_of_embeddedCheck isCheck whole
  | _ => cases isCall

theorem not_mem_amount
    {character : Char}
    (notDigit : Text.isDecimalDigit character = false)
    (notAscii : character.isDigit = false)
    {allowed : Tolerance}
    (isAmount : ∀ amount, allowed = .explicit amount → IsNumber amount) :
    character ∉ allowed.amount tolerance := by
  intro member
  cases allowed with
  | exact =>
      obtain rfl : character = '0' := by simpa [Tolerance.amount, Text.chars_eq_toList] using member
      exact absurd notAscii (by decide)
  | configured =>
      have isDigit := Nat.isDigit_of_mem_toDigits (by decide) (by decide) member
      simp [notAscii] at isDigit
  | explicit amount => simp [(isAmount amount rfl).digits character member] at notDigit

/-- Only digits and commas are written into the check of a pixel. -/
theorem not_mem_operands_of_isPixel
    {coordinates color : List Char}
    {allowed : Tolerance}
    (isPixel : (pixel coordinates color allowed).IsPixel)
    (tolerance : Nat)
    {character : Char}
    (notDigit : Text.isDecimalDigit character = false)
    (notAscii : character.isDigit = false)
    (notComma : character ≠ ',') :
    character ∉ coordinates ∧ character ∉ color ∧ character ∉ allowed.amount tolerance := by
  obtain ⟨isCoordinates, isColor, isAmount⟩ := isPixel
  refine ⟨fun member => ?_, fun member => ?_, not_mem_amount notDigit notAscii isAmount⟩
  · simpa [notDigit, notComma] using isCoordinates.digit_or_comma member
  · simpa [notDigit, notComma] using isColor.digit_or_comma member

/-- A pixel is checked by a single statement, which calls `isPixel`. -/
theorem exists_isMarkable_of_isPixel (isPixel : directive.IsPixel) (tolerance : Nat) :
    ∃ operands, IsMarkable "is" "todo_is" operands tolerance directive ∧ ';' ∉ operands := by
  cases directive with
  | pixel coordinates color allowed =>
      have noBreak : '\n' ∉ coordinates ∧ '\n' ∉ color ∧ '\n' ∉ allowed.amount tolerance :=
        not_mem_operands_of_isPixel isPixel tolerance (by decide) (by decide) (by decide)
      have single : ';' ∉ coordinates ∧ ';' ∉ color ∧ ';' ∉ allowed.amount tolerance :=
        not_mem_operands_of_isPixel isPixel tolerance (by decide) (by decide) (by decide)
      refine ⟨"Pixel(ctx, " ++ pixelArguments coordinates color ++ ", " ++
        allowed.amount tolerance ++ ")", ⟨?_, ?_, ?_⟩, ?_⟩
      · simp [embedded, Text.chars_eq_toList]
      · simp [embeddedFailing, embedded, Text.chars_eq_toList, Text.after?]
      · simp [pixelArguments, Text.chars_eq_toList, noBreak]
      · simp [pixelArguments, Text.chars_eq_toList, single]
  | _ => exact isPixel.elim

end Directive

end Conformance
