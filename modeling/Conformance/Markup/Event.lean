import Conformance.Markup.Attribute
import Conformance.Markup.Tree
import Conformance.Text.Search

/-!
# Events of a document source

A document source is read as a sequence of events: tags, text and comments, each with the byte
positions between which it stands.  Declarations, document types and processing instructions give
no event.  Reading ends at the end of the source or at the first fault.
-/

namespace Conformance
namespace Markup

open scoped Text

/-- What a piece of a document source means. -/
inductive Event where
  /-- A start tag. -/
  | opening (tag : Tag)
  /-- A tag that starts and ends an element. -/
  | empty (tag : Tag)
  /-- An end tag. -/
  | closing (name : String)
  /-- Text, with its references resolved, or character data. -/
  | text (content : String)
  /-- A comment. -/
  | comment (content : String)
deriving DecidableEq, Inhabited, Repr

/-- An event and where it stands in the source. -/
structure Located where
  /-- What is meant. -/
  event : Event
  /-- The position of its first byte. -/
  first : Nat
  /-- The position behind its last byte. -/
  last : Nat
deriving DecidableEq, Inhabited, Repr

/-- All that is read from a source. -/
structure Reading where
  /-- The events in their order. -/
  events : List Located
  /-- The position at which the source ends, or why reading stopped. -/
  ending : Except Refusal Nat

namespace Reading

/-- The content of a tag up to the first closing bracket outside quotes, and what follows the
bracket.  `quote` is the quote inside which the text begins. -/
def untilClosed? (quote : Option Char) : List Char → Option (List Char × List Char)
  | [] => none
  | character :: text =>
      let keep (following : Option Char) :=
        (untilClosed? following text).map fun (content, rest) => (character :: content, rest)
      match quote with
      | some closing => keep (if character = closing then none else quote)
      | none =>
          if character = '>' then some ([], text)
          else keep (if character = '"' ∨ character = '\'' then some character else none)

/-- The content of a document type up to the closing bracket that balances no earlier bracket
inside, and what follows.  `depth` counts the brackets that are open inside. -/
def untilBalanced? (depth : Nat) : List Char → Option (List Char × List Char)
  | [] => none
  | character :: text =>
      let keep (depth : Nat) :=
        (untilBalanced? depth text).map fun (content, rest) => (character :: content, rest)
      if character = '<' then keep (depth + 1)
      else if character = '>' then
        match depth with
        | 0 => some ([], text)
        | depth + 1 => keep depth
      else keep depth

/-- The text up to and with the first occurrence of `ending` before a closing bracket, and what
follows the bracket. -/
def untilEnding? (ending : List Char) (text : List Char) : Option (List Char × List Char) :=
  (Text.splitFirst? (ending ++ ">") text).map fun (content, rest) => (content ++ ending, rest)

/-- What stands between an opening bracket and the bracket that closes it, and what follows. -/
def content (text : List Char) : Except Fault (List Char × List Char) :=
  let orElse (fault : Fault) (found : Option (List Char × List Char)) :=
    match found with
    | some parts => Except.ok parts
    | none => .error fault
  let after (start : List Char) (found : Option (List Char × List Char)) :=
    found.map fun (inner, rest) => (start ++ inner, rest)
  match text with
  | '!' :: '[' :: later => orElse .dataNotClosed (after ['!', '['] (untilEnding? "]]" later))
  | '!' :: '-' :: next :: later =>
      orElse .commentNotClosed (after ['!', '-', next] (untilEnding? "--" later))
  | ['!', '-'] => .error .commentNotClosed
  | '!' :: 'D' :: later => orElse .doctypeNotClosed (after ['!', 'D'] (untilBalanced? 0 later))
  | '!' :: 'd' :: later => orElse .doctypeNotClosed (after ['!', 'd'] (untilBalanced? 0 later))
  | '!' :: _ => .error .unknownDeclaration
  | '?' :: '>' :: _ => .error .instructionNotClosed
  | '?' :: later => orElse .instructionNotClosed (after ['?'] (untilEnding? "?" later))
  | _ => orElse .tagNotClosed (untilClosed? none text)

/-- The parts of a tag: its name and what follows the name. -/
def tagParts (text : List Char) : List Char × List Char :=
  let inName := fun character => !Attribute.isSpace character
  (text.takeWhile inName, text.dropWhile inName)

/-- The tag with the given content. -/
def readTag (text : List Char) : Except Fault Tag := do
  let (name, rest) := tagParts text
  let attributes ← Attribute.readAll (Text.byteSize text) [] rest
  return { name := String.ofList name, attributes := attributes }

/-- The name in an end tag: white space at its end does not count, unless there is nothing
else. -/
def closingName (text : List Char) : List Char :=
  let trimmed := (text.reverse.dropWhile Attribute.isSpace).reverse
  if trimmed.isEmpty then text else trimmed

/-- Whether the content of a declaration begins like a document type, in whatever case. -/
def afterDoctype? (text : List Char) : Option (List Char) :=
  let word := text.take 8
  if word.map Char.toUpper = Text.chars "!DOCTYPE" then some (text.drop 8) else none

/-- What a declaration means; `first` and `last` are the positions of the brackets around it. -/
def ofDeclaration (first last : Nat) (text : List Char) : Except Refusal (Option Event) :=
  match text with
  | '!' :: '[' :: _ =>
      match Text.after? "![CDATA[" text with
      | some data => .ok (some (.text (String.ofList (data.take (data.length - 2)))))
      | none => .error ⟨first, .dataNotClosed⟩
  | '!' :: '-' :: _ =>
      match Text.after? "!--" text with
      | some comment => .ok (some (.comment (String.ofList (comment.take (comment.length - 2)))))
      | none => .error ⟨first, .commentNotClosed⟩
  | _ =>
      match afterDoctype? text with
      | some name =>
          if name.all Attribute.isSpace then .error ⟨last, .doctypeWithoutName⟩ else .ok none
      | none => .error ⟨first, .doctypeNotClosed⟩

/-- What the content between two brackets means; `first` and `last` are the positions of the
brackets. -/
def ofContent (first last : Nat) (text : List Char) : Except Refusal (Option Event) :=
  let atEnd {α : Type} (result : Except Fault α) : Except Refusal α :=
    result.mapError fun fault => ⟨last + 1, fault⟩
  match text with
  | '!' :: _ => ofDeclaration first last text
  | '?' :: _ => .ok none
  | '/' :: name => .ok (some (.closing (String.ofList (closingName name))))
  | _ =>
      match text.getLast? with
      | some '/' => return some (.empty (← atEnd (readTag text.dropLast)))
      | _ => return some (.opening (← atEnd (readTag text)))

theorem length_lt_of_untilClosed?
    {quote : Option Char}
    {text inner rest : List Char}
    (found : untilClosed? quote text = some (inner, rest)) :
    rest.length < text.length := by
  induction text generalizing quote inner with
  | nil => exact nomatch found
  | cons character text inductionHypothesis =>
      unfold untilClosed? at found
      have later {following : Option Char}
          (kept : (untilClosed? following text).map
            (fun (content, rest) => (character :: content, rest)) = some (inner, rest)) :
          rest.length < (character :: text).length := by
        simp only [Option.map_eq_some_iff, Prod.exists, Prod.mk.injEq] at kept
        obtain ⟨content, after, isContent, -, rfl⟩ := kept
        have shorter := inductionHypothesis isContent
        simp only [List.length_cons]
        omega
      split at found
      · exact later found
      · split at found
        · simp only [Option.some.injEq, Prod.mk.injEq] at found
          simp [← found.2]
        · exact later found

theorem length_lt_of_untilBalanced?
    {depth : Nat}
    {text inner rest : List Char}
    (found : untilBalanced? depth text = some (inner, rest)) :
    rest.length < text.length := by
  induction text generalizing depth inner with
  | nil => exact nomatch found
  | cons character text inductionHypothesis =>
      unfold untilBalanced? at found
      have later {depth : Nat}
          (kept : (untilBalanced? depth text).map
            (fun (content, rest) => (character :: content, rest)) = some (inner, rest)) :
          rest.length < (character :: text).length := by
        simp only [Option.map_eq_some_iff, Prod.exists, Prod.mk.injEq] at kept
        obtain ⟨content, after, isContent, -, rfl⟩ := kept
        have shorter := inductionHypothesis isContent
        simp only [List.length_cons]
        omega
      split at found
      · exact later found
      · split at found
        · split at found
          · simp only [Option.some.injEq, Prod.mk.injEq] at found
            simp [← found.2]
          · exact later found
        · exact later found

theorem length_lt_of_untilEnding?
    {ending text inner rest : List Char}
    (found : untilEnding? ending text = some (inner, rest)) :
    rest.length < text.length := by
  simp only [untilEnding?, Option.map_eq_some_iff, Prod.exists, Prod.mk.injEq] at found
  obtain ⟨before, after, split, -, rfl⟩ := found
  rw [Text.eq_of_splitFirst?_eq_some split]
  simp only [List.length_append, Text.chars_eq_toList]
  have positive : 0 < ">".toList.length := by decide
  omega

theorem length_lt_of_content
    {text inner rest : List Char}
    (found : content text = .ok (inner, rest)) :
    rest.length < text.length := by
  have opened {fault : Fault} {start later : List Char}
      {parts : Option (List Char × List Char)}
      (isStart : text = start ++ later)
      (shorter : ∀ {inner rest}, parts = some (inner, rest) → rest.length < later.length)
      (isResult :
        (match parts.map fun (inner, rest) => (start ++ inner, rest) with
          | some parts => Except.ok parts
          | none => .error fault) = .ok (inner, rest)) :
      rest.length < text.length := by
    cases parts with
    | none => exact nomatch isResult
    | some parts =>
        simp only [Option.map_some, Except.ok.injEq, Prod.mk.injEq] at isResult
        have smaller := @shorter parts.1 parts.2 rfl
        rw [isStart, List.length_append, ← isResult.2]
        omega
  simp only [content] at found
  split at found
  · exact opened rfl length_lt_of_untilEnding? found
  · exact opened rfl length_lt_of_untilEnding? found
  · exact nomatch found
  · exact opened rfl length_lt_of_untilBalanced? found
  · exact opened rfl length_lt_of_untilBalanced? found
  · exact nomatch found
  · exact nomatch found
  · exact opened rfl length_lt_of_untilEnding? found
  · split at found
    · next parts isParts =>
        simp only [Except.ok.injEq] at found
        rw [found] at isParts
        exact length_lt_of_untilClosed? isParts
    · exact nomatch found

/-- What is read behind an event. -/
def behind (event : Option Event) (first last : Nat) (later : Reading) : Reading :=
  match event with
  | some event => { later with events := ⟨event, first, last⟩ :: later.events }
  | none => later

/-- A reading that stops at once. -/
def stopped (refusal : Refusal) : Reading where
  events := []
  ending := .error refusal

/-- Reads a source from a position on. -/
def ofTextFrom (position : Nat) : List Char → Reading
  | [] => { events := [], ending := .ok position }
  | '<' :: text =>
      match _content : content text with
      | .error fault => stopped ⟨position, fault⟩
      | .ok (inner, rest) =>
          let last := position + 1 + Text.byteSize inner
          match ofContent position last inner with
          | .error refusal => stopped refusal
          | .ok event => behind event position (last + 1) (ofTextFrom (last + 1) rest)
  | character :: text =>
      let written := character :: text.takeWhile (· != '<')
      let last := position + Text.byteSize written
      match Reference.resolveAll written with
      | .error fault => stopped ⟨last, fault⟩
      | .ok content =>
          behind (some (.text (String.ofList content))) position last
            (ofTextFrom last (text.dropWhile (· != '<')))
termination_by text => text.length
decreasing_by
  · have shorter := length_lt_of_content _content
    simp only [List.length_cons]
    omega
  · have shorter := (List.dropWhile_sublist (· != '<') (l := text)).length_le
    simp only [List.length_cons]
    omega

/-- Reads a source.  A byte order mark in front of it does not count. -/
def ofSource (source : List Char) : Reading :=
  match source with
  | '\ufeff' :: text => ofTextFrom 0 text
  | text => ofTextFrom 0 text

end Reading

end Markup
end Conformance
