import Conformance.Proofs.Boundary.Enumeration
import Conformance.Proofs.Translator.Dialects

/-!
# Written arguments

Arguments are written as lists of values in angle brackets, with commas in between, and reading such
a text gives the arguments back.  Every argument that is read has a value, whatever the text is.  So
a call with alternatives lacks an argument only if the text of its arguments is blank, and a body is
refused for that exactly if its expansion comes to such a call.
-/

namespace Conformance

open scoped Text

namespace Boundary

/-- An argument as it is written: its values between angle brackets, with spaces in between. -/
def writeArgument (values : List (List Char)) : List Char :=
  '<' :: (List.intercalate [' '] values ++ ['>'])

/-- Arguments as they are written, one after the other. -/
def writeArguments (arguments : List (List (List Char))) : List Char :=
  List.intercalate ", " (arguments.map writeArgument)

variable {values : List (List Char)} {arguments : List (List (List Char))} {text : List Char}

/-! ## Reading back -/

/-- The brackets that end an argument are the outermost ones, so values may hold others. -/
theorem readArgument_writeArgument
    (nonempty : values ≠ [])
    (noSpace : ∀ value ∈ values, ' ' ∉ value) :
    readArgument (writeArgument values) = values := by
  have closes : Text.splitLast? ['>'] (List.intercalate [' '] values ++ ['>']) =
      some (List.intercalate [' '] values, []) :=
    Text.splitLast?_eq_some_iff.2 (Text.isLastOccurrence_of_not_mem List.not_mem_nil)
  rw [writeArgument, readArgument, closes]
  exact List.splitOn_intercalate ' ' noSpace nonempty

theorem comma_not_mem_writeArgument (noComma : ∀ value ∈ values, ',' ∉ value) :
    ',' ∉ writeArgument values := by
  have inside : ',' ∉ List.intercalate [' '] values := by
    induction values with
    | nil => exact List.not_mem_nil
    | cons value values inductionHypothesis =>
        rw [List.forall_mem_cons] at noComma
        cases values with
        | nil => simpa using noComma.1
        | cons next others =>
            rw [List.intercalate_cons_cons, List.mem_append, List.mem_append, not_or, not_or]
            exact ⟨⟨noComma.1, by decide⟩, inductionHypothesis noComma.2⟩
  simp [writeArgument, inside]

/-- A written argument holds a bracket, so written arguments are not blank. -/
theorem not_all_isBlank_writeArguments (nonempty : arguments ≠ []) :
    (writeArguments arguments).all Text.isBlank = false := by
  obtain ⟨argument, others, rfl⟩ := List.exists_cons_of_ne_nil nonempty
  have member : '<' ∈ writeArguments (argument :: others) := by
    cases others <;> simp [writeArguments, writeArgument]
  exact List.all_eq_false.2 ⟨'<', member, by decide⟩

/-- Written arguments are read back. -/
theorem readArguments_writeArguments
    (nonempty : arguments ≠ [])
    (plain : ∀ values ∈ arguments, values ≠ [] ∧ ∀ value ∈ values, ' ' ∉ value ∧ ',' ∉ value) :
    readArguments (writeArguments arguments) = arguments := by
  have split : Text.pieces ", " (writeArguments arguments) = arguments.map writeArgument := by
    rw [writeArguments, chars_separator]
    refine Text.pieces_intercalate (by simpa using nonempty) ?_
    rw [List.forall_mem_map]
    exact fun values member =>
      comma_not_mem_writeArgument fun value isValue => ((plain values member).2 value isValue).2
  rw [readArguments, not_all_isBlank_writeArguments nonempty, split, List.map_map]
  refine (List.map_congr_left fun values member => ?_).trans (List.map_id arguments)
  exact readArgument_writeArgument (plain values member).1
    fun value isValue => ((plain values member).2 value isValue).1

/-! ## Arguments that are read -/

/-- An argument that is read has a value. -/
theorem readArgument_ne_nil (text : List Char) : readArgument text ≠ [] := by
  unfold readArgument
  split
  · split
    · exact List.splitOn_ne_nil _ _
    · exact List.cons_ne_nil _ _
  · exact List.cons_ne_nil _ _

theorem nil_not_mem_readArguments (text : List Char) : [] ∉ readArguments text := by
  rw [readArguments]
  split
  · exact List.not_mem_nil
  · intro member
    obtain ⟨piece, -, isNil⟩ := List.mem_map.1 member
    exact readArgument_ne_nil piece isNil

/-- There is no argument only in a blank text. -/
theorem readArguments_eq_nil_iff : readArguments text = [] ↔ text.all Text.isBlank = true := by
  rw [readArguments]
  split
  · next isBlank => simp [isBlank]
  · next notBlank => simp [notBlank, chars_separator, Text.pieces_ne_nil]

/-- The calls at the boundaries lack an argument only if the written arguments are blank. -/
theorem expand?_readArguments_eq_none_iff {callable tail : List Char} :
    expand? callable (readArguments text) tail = none ↔ text.all Text.isBlank = true := by
  rw [expand?, Option.map_eq_none_iff, arguments?_eq_none_iff, readArguments_eq_nil_iff,
    or_iff_left (nil_not_mem_readArguments text)]

end Boundary

/-! ## Calls without arguments -/

namespace Body

/-- Whether a piece is a call with alternatives whose written arguments are blank. -/
def Piece.lacksArguments : Piece → Bool
  | .active (.nonfinite _ arguments _) => arguments.all Text.isBlank
  | _ => false

theorem Piece.exists_expand_eq_ok_iff (piece : Piece) :
    (∃ code, piece.expand = .ok code) ↔ piece.lacksArguments = false := by
  unfold expand
  split
  · simp [lacksArguments]
  · next callable arguments tail =>
      have missing :
          Boundary.expand? callable (Boundary.readArguments arguments) tail = none ↔
            arguments.all Text.isBlank = true :=
        Boundary.expand?_readArguments_eq_none_iff
      cases found : Boundary.expand? callable (Boundary.readArguments arguments) tail with
      | none => simp [lacksArguments, missing.1 found]
      | some calls =>
          rw [found] at missing
          simpa [lacksArguments] using missing
  · next directive notCall =>
      cases directive
      case nonfinite callable arguments tail => exact absurd rfl (notCall callable arguments tail)
      all_goals simp [lacksArguments]

/-- A call without arguments is refused by its name. -/
theorem Piece.expand_of_lacksArguments
    {piece : Piece}
    (lacks : piece.lacksArguments = true) :
    ∃ callable arguments tail, piece = .active (.nonfinite callable arguments tail) ∧
      piece.expand = .error (.arity (String.ofList callable)) := by
  unfold lacksArguments at lacks
  split at lacks
  · next callable arguments tail =>
      refine ⟨callable, arguments, tail, rfl, ?_⟩
      rw [expand, Boundary.expand?_readArguments_eq_none_iff.2 lacks]
  · cases lacks

/-- Pieces are expanded up to the first call without arguments, which is refused. -/
theorem mapM_expand_eq_error_iff {pieces : List Piece} {error : Error} :
    pieces.mapM Piece.expand = .error error ↔
      ∃ callable arguments tail,
        pieces.find? Piece.lacksArguments =
          some (.active (.nonfinite callable arguments tail)) ∧
        error = .arity (String.ofList callable) := by
  induction pieces with
  | nil => simp [pure, Except.pure]
  | cons piece pieces inductionHypothesis =>
      rw [List.mapM_cons]
      cases lacks : piece.lacksArguments with
      | true =>
          obtain ⟨callable, arguments, tail, rfl, isError⟩ := piece.expand_of_lacksArguments lacks
          rw [List.find?_cons_of_pos lacks, isError]
          constructor
          · rintro ⟨⟩
            exact ⟨callable, arguments, tail, rfl, rfl⟩
          · rintro ⟨_, _, _, ⟨⟩, rfl⟩
            rfl
      | false =>
          obtain ⟨code, isCode⟩ := piece.exists_expand_eq_ok_iff.2 lacks
          rw [List.find?_cons_of_neg (by simp [lacks]), ← inductionHypothesis, isCode]
          cases pieces.mapM Piece.expand <;> simp [bind, Except.bind, pure, Except.pure]

/-- The first pass refuses a body exactly for its first call without arguments. -/
theorem expand_eq_error_iff {text : List Char} {error : Error} :
    expand text = .error error ↔
      ∃ callable arguments tail,
        (pieces .expansion text).find? Piece.lacksArguments =
          some (.active (.nonfinite callable arguments tail)) ∧
        error = .arity (String.ofList callable) := by
  rw [← mapM_expand_eq_error_iff, expand]
  cases (pieces .expansion text).mapM Piece.expand <;> simp [bind, Except.bind, pure, Except.pure]

end Body

namespace Boundary

/-- Arguments whose values hold neither spaces nor commas are read back as they are written, though
values may be empty or hold brackets.  Whatever is read, every argument has a value.  So a body is
refused for the arguments of a call, in either dialect, exactly if its expansion comes to a call
whose written arguments are blank, and it is refused by the name of the first such call. -/
theorem readArguments_reads_back :
    (∀ arguments : List (List (List Char)), arguments ≠ [] →
      (∀ values ∈ arguments, values ≠ [] ∧ ∀ value ∈ values, ' ' ∉ value ∧ ',' ∉ value) →
      readArguments (writeArguments arguments) = arguments) ∧
    (∀ text, [] ∉ readArguments text) ∧
    ∀ (translator : Translator) (dialect : Dialect) (body name : String),
      translator.translate dialect body = .error (.arity name) ↔
        ∃ callable arguments tail,
          (Body.pieces .expansion body.toList).find? Body.Piece.lacksArguments =
            some (.active (.nonfinite callable arguments tail)) ∧
          name = String.ofList callable := by
  refine ⟨fun arguments => readArguments_writeArguments, nil_not_mem_readArguments, ?_⟩
  intro translator dialect body name
  rw [Translator.translate_eq_arity_iff, Body.expand_eq_error_iff]
  simp only [Error.arity.injEq]

/-- Values that are empty or hold brackets are read back.  A call with an empty value is in order,
and of two calls without arguments the first one is named. -/
theorem readArguments_reads_back_brackets :
    let arguments : List (List (List Char)) := [["0", "a<b>", ""], [""], ["1", ">"]]
    let body := "@nonfinite f(<>);\n@nonfinite g( );\n@nonfinite h();"
    (∀ values ∈ arguments, values ≠ [] ∧ ∀ value ∈ values, ' ' ∉ value ∧ ',' ∉ value) ∧
      writeArguments arguments = "<0 a<b> >, <>, <1 >>" ∧
      readArguments (writeArguments arguments) = arguments ∧
      (Body.pieces .expansion body.toList).find? Body.Piece.lacksArguments =
        some (.active (.nonfinite "g" " " ";")) ∧
      ({} : Translator).translate .embedded body = .error (.arity "g") := by
  intro arguments body
  have plain : ∀ values ∈ arguments,
      values ≠ [] ∧ ∀ value ∈ values, ' ' ∉ value ∧ ',' ∉ value := by
    simp only [arguments, Text.chars_eq_toList]
    decide
  have first : (Body.pieces .expansion body.toList).find? Body.Piece.lacksArguments =
      some (.active (.nonfinite "g" " " ";")) := by
    simp only [body, Text.chars_eq_toList]
    decide +kernel
  refine ⟨plain, ?_, readArguments_reads_back.1 arguments (List.cons_ne_nil _ _) plain, first, ?_⟩
  · simp only [arguments, Text.chars_eq_toList]
    decide +kernel
  · refine (readArguments_reads_back.2.2 {} .embedded body "g").2 ⟨_, _, _, first, ?_⟩
    rw [Text.chars_eq_toList, String.ofList_toList]

end Boundary

end Conformance
