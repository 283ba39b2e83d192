import Conformance.Body
import Conformance.Boundary
import Conformance.Dialect
import Conformance.Error
import Conformance.Value.Record

/-!
# Translating test bodies

A body is translated in two passes: calls with alternatives are expanded, then every other
directive is rendered in the dialect.  Embedded code is mended afterwards, for what depends on
the statement before a mark.  Code in which a directive is left is refused.
-/

namespace Conformance

open scoped Text

namespace Body

/-- The code of a piece after the first pass. -/
def Piece.expand : Piece → Except Error (List Char)
  | .plain character => .ok [character]
  | .active (.nonfinite callable arguments tail) =>
      match Boundary.expand? callable (Boundary.readArguments arguments) tail with
      | some calls => .ok (List.intercalate "\n" calls)
      | none => .error (.arity (String.ofList callable))
  | .active other => .ok other.source

/-- The first pass: every call with alternatives becomes the lines of its boundary calls. -/
def expand (text : List Char) : Except Error (List Char) :=
  return (← (pieces .expansion text).mapM Piece.expand).flatten

/-- Text that is written backwards, without a space at its end. -/
def withoutSpace : List Char → List Char
  | ' ' :: earlier => earlier
  | written => written

/-- Writes the code of a piece behind what is written already; `written` is kept backwards. -/
def Piece.write
    (dialect : Dialect)
    (tolerance : Nat)
    (written : List Char) :
    Piece → List Char
  | .plain character => character :: written
  | .active directive =>
      (dialect.render tolerance directive).reverse ++
        if directive.absorbsLeadingSpace then withoutSpace written else written

/-- The second pass: every directive becomes code of the dialect. -/
def render (dialect : Dialect) (tolerance : Nat) (text : List Char) : List Char :=
  ((pieces .directive text).foldl (Piece.write dialect tolerance) []).reverse

/-- Text behind a statement that is known to fail. -/
def todoMark : List Char :=
  "; @moz-todo"

/-- A statement that begins with the keyword, after blanks, and is marked as known to fail on its
line: the blanks, what stands between keyword and mark, and what follows the mark. -/
def markedStatement?
    (keyword : List Char)
    (text : List Char) :
    Option (List Char × List Char × List Char) := do
  let blanks := text.takeWhile Text.isBlank
  let afterKeyword ← Text.after? keyword (text.dropWhile Text.isBlank)
  let (operands, rest) ← Text.splitLast? todoMark (Text.firstLine afterKeyword)
  return (blanks, operands, rest ++ Text.afterFirstLine afterKeyword)

/-- A marked statement is made of its parts. -/
theorem eq_of_markedStatement?_eq_some
    {keyword text blanks operands rest : List Char}
    (found : markedStatement? keyword text = some (blanks, operands, rest)) :
    text = blanks ++ keyword ++ operands ++ todoMark ++ rest := by
  simp only [markedStatement?, Option.bind_eq_bind, Option.bind_eq_some_iff, Prod.exists,
    Option.pure_def, Option.some.injEq, Prod.mk.injEq] at found
  obtain ⟨afterKeyword, isAfter, before, after, split, rfl, rfl, rfl⟩ := found
  have line := Text.eq_of_splitLast?_eq_some split
  have whole := Text.firstLine_append_afterFirstLine afterKeyword
  have parts := List.takeWhile_append_dropWhile (p := Text.isBlank) (l := text)
  rw [Text.after?_eq_some_iff.1 isAfter, ← whole, line] at parts
  conv => lhs; rw [← parts]
  simp only [List.append_assoc]

/-- Gives every marked statement that begins with the keyword another one, and takes the mark
away.  Statements begin behind a line break or a semicolon. -/
def renameMarkedLater (keyword renamed : List Char) : List Char → List Char
  | [] => []
  | character :: text =>
      match _found :
          if character = '\n' ∨ character = ';' then markedStatement? keyword text else none with
      | some (blanks, operands, rest) =>
          character ::
            (blanks ++ renamed ++ operands ++ ";" ++ renameMarkedLater keyword renamed rest)
      | none => character :: renameMarkedLater keyword renamed text
termination_by text => text.length
decreasing_by
  · split at _found
    · have parts := congrArg List.length (eq_of_markedStatement?_eq_some _found)
      simp only [List.length_append, List.length_cons] at parts ⊢
      omega
    · exact nomatch _found
  · simp

/-- Gives every marked statement that begins with the keyword another one, and takes the mark
away.  The text itself begins with a statement. -/
def renameMarked (keyword renamed text : List Char) : List Char :=
  match markedStatement? keyword text with
  | some (blanks, operands, rest) =>
      blanks ++ renamed ++ operands ++ ";" ++ renameMarkedLater keyword renamed rest
  | none => renameMarkedLater keyword renamed text

/-- The first directive mark that is left in code, shortened to 48 characters and to the word
that it begins. -/
def leftover? (code : List Char) : Option (List Char) :=
  match code.dropWhile (· != '@') with
  | [] => none
  | marked =>
      let word := marked.takeWhile fun character => !Text.isBlank character && character != ';'
      some (word.take 48)

end Body

/-- The settings by which bodies are translated. -/
structure Translator where
  /-- The tolerance of approximate pixel checks that name none. -/
  pixelTolerance : Nat := 2
  /-- What the paths of shared images begin with. -/
  sharedImageDirectory : String := "../images/"
  /-- What stands in its place in embedded code. -/
  embeddedImageStart : String := "image_"
deriving DecidableEq, Inhabited, Repr

namespace Translator

/-- Mends embedded code: marks are resolved and image paths replaced. -/
def embed (translator : Translator) (code : List Char) : List Char :=
  Text.replace translator.sharedImageDirectory.toList translator.embeddedImageStart.toList
    (Body.renameMarked "is" "todo_is" (Body.renameMarked "ok" "todo" code))

/-- The code for an expanded body, whatever directives are left in it. -/
def render (translator : Translator) (dialect : Dialect) (expanded : List Char) : List Char :=
  let code := Body.render dialect translator.pixelTolerance expanded
  match dialect with
  | .standalone => code
  | .embedded => translator.embed code

/-- Refuses code in which a directive is left. -/
def checked (code : List Char) : Except Error (List Char) :=
  match Body.leftover? code with
  | some fragment => .error (.untranslatedDirective (String.ofList fragment))
  | none => .ok code

/-- Translates the characters of a body. -/
def translateText
    (translator : Translator)
    (dialect : Dialect)
    (body : List Char) :
    Except Error (List Char) := do
  let expanded ← Body.expand body
  checked (translator.render dialect expanded)

/-- Translates a body. -/
def translate (translator : Translator) (dialect : Dialect) (body : String) : Except Error String :=
  return String.ofList (← translator.translateText dialect body.toList)

/-- The names of the settings in their fixed order. -/
def fieldNames : List String :=
  ["pixel_tolerance", "shared_image_dir", "embedded_image_prefix"]

/-- Reads the settings. -/
def ofValue? (value : Value) : Option Translator := do
  let record ← Record.ofValue? fieldNames value
  let standard : Translator := {}
  return {
    pixelTolerance := ← record.withDefault "pixel_tolerance" standard.pixelTolerance
      (Value.toNat? Value.maxUnsigned32)
    sharedImageDirectory := ← record.withDefault "shared_image_dir"
      standard.sharedImageDirectory Value.toText?
    embeddedImageStart := ← record.withDefault "embedded_image_prefix"
      standard.embeddedImageStart Value.toText? }

/-- Writes the settings. -/
def toValue (translator : Translator) : Value :=
  .table [
    ("pixel_tolerance", .ofNat translator.pixelTolerance),
    ("shared_image_dir", .string translator.sharedImageDirectory),
    ("embedded_image_prefix", .string translator.embeddedImageStart)]

end Translator

end Conformance
