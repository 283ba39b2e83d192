import Conformance.Toml.Number
import Conformance.Toml.Table

/-!
# Reading configuration files

A file is a sequence of statements on lines of their own: headers of tables, and keys with values.
-/

namespace Conformance
namespace Toml

/-- How deep arrays and tables in braces may be nested, and how many parts a key may have; one
less is allowed. -/
def nestingLimit : Nat :=
  80

/-- Whether a character may stand in a key without quotes. -/
def isBare (character : Char) : Bool :=
  character.isAlphanum || character == '-' || character == '_'

/-- One part of a key. -/
def readKeyPart? (text : List Char) : Option (String × List Char) :=
  match text with
  | '"' :: rest => (readBasic? rest).map fun (name, rest) => (String.ofList name, rest)
  | '\'' :: rest => (readLiteral? rest).map fun (name, rest) => (String.ofList name, rest)
  | _ =>
      let name := text.takeWhile isBare
      if name.isEmpty then none else some (String.ofList name, text.dropWhile isBare)

/-- The parts of a key, with spaces around them; at most `limit` of them. -/
def readKeyParts? : (limit : Nat) → List Char → Option (List String × List Char)
  | 0, _ => none
  | limit + 1, text => do
      let (part, afterPart) ← readKeyPart? (afterSpaces text)
      match afterSpaces afterPart with
      | '.' :: rest =>
          let (parts, rest) ← readKeyParts? limit rest
          return (part :: parts, rest)
      | rest => return ([part], rest)

/-- A key: its parts before the last one, and the last one. -/
def readKey? (text : List Char) : Option ((List String × String) × List Char) := do
  let (parts, rest) ← readKeyParts? (nestingLimit - 1) text
  return ((parts.dropLast, parts.getLastD ""), rest)

/-- A key, an equals sign and a value. -/
def readAssignment?
    (readValue? : List Char → Option (Value × List Char))
    (text : List Char) :
    Option ((List String × String × Value) × List Char) := do
  let ((path, name), afterKey) ← readKey? text
  let afterSign ← afterCharacter? '=' afterKey
  let (value, rest) ← readValue? (afterSpaces afterSign)
  return ((path, name, value), rest)

/-- The elements of an array, after the opening bracket or a comma, up to the closing bracket; at
most `limit` of them. -/
def readElements?
    (readValue? : List Char → Option (Value × List Char)) :
    (limit : Nat) → List Char → Option (List Value × List Char)
  | 0, _ => none
  | limit + 1, text => do
      match ← afterBlanks? text with
      | ']' :: rest => return ([], rest)
      | element =>
          let (value, afterValue) ← readValue? element
          match ← afterBlanks? afterValue with
          | ',' :: rest =>
              let (values, rest) ← readElements? readValue? limit rest
              return (value :: values, rest)
          | ']' :: rest => return ([value], rest)
          | _ => none

/-- The assignments in a table in braces, after the opening brace or a comma; at most `limit` of
them. -/
def readAssignments?
    (readValue? : List Char → Option (Value × List Char)) :
    (limit : Nat) → List Char → Option (List (List String × String × Value) × List Char)
  | 0, _ => none
  | limit + 1, text => do
      let (assignment, afterValue) ← readAssignment? readValue? text
      match afterSpaces afterValue with
      | ',' :: rest =>
          let (assignments, rest) ← readAssignments? readValue? limit rest
          return (assignment :: assignments, rest)
      | '\x7d' :: rest => return ([assignment], rest)
      | _ => none

/-- A table in braces, after the opening one. -/
def readBraces?
    (readValue? : List Char → Option (Value × List Char))
    (text : List Char) :
    Option (Value × List Char) :=
  match afterSpaces text with
  | '\x7d' :: rest => some (.table [], rest)
  | inner => do
      let (assignments, rest) ← readAssignments? readValue? inner.length inner
      return (← ofAssignments? assignments, rest)

/-- A value in which arrays and tables in braces are nested at most `depth` deep. -/
def readValue? (depth : Nat) (text : List Char) : Option (Value × List Char) :=
  match text with
  | '"' :: _ | '\'' :: _ =>
      (readString? text).map fun (content, rest) => (.string (String.ofList content), rest)
  | 't' :: 'r' :: 'u' :: 'e' :: rest => some (.bool true, rest)
  | 'f' :: 'a' :: 'l' :: 's' :: 'e' :: rest => some (.bool false, rest)
  | '[' :: rest =>
      match depth with
      | 0 => none
      | depth + 1 =>
          (readElements? (readValue? depth) text.length rest).map fun (values, rest) =>
            (.array values, rest)
  | '\x7b' :: rest =>
      match depth with
      | 0 => none
      | depth + 1 => readBraces? (readValue? depth) rest
  | _ => readScalar? text

/-- A statement at the beginning of a line. -/
def readStatement? (text : List Char) : Option (Statement × List Char) :=
  match text with
  | '[' :: '[' :: rest => do
      let ((path, name), rest) ← readKey? rest
      match rest with
      | ']' :: ']' :: rest => return (.element path name, ← afterLineEnd? rest)
      | _ => none
  | '[' :: rest => do
      let ((path, name), rest) ← readKey? rest
      return (.table path name, ← afterLineEnd? (← afterCharacter? ']' rest))
  | text => do
      let ((path, name, value), rest) ← readAssignment? (readValue? (nestingLimit - 1)) text
      return (.assign path name value, ← afterLineEnd? rest)

/-- The statements of a text with at most `limit` lines. -/
def readStatements? : (limit : Nat) → List Char → Option (List Statement)
  | 0, _ => none
  | limit + 1, text =>
      match afterSpaces text with
      | [] => some []
      | '#' :: comment => do
          readStatements? limit (← afterLineEnd? ('#' :: comment))
      | '\n' :: rest => readStatements? limit rest
      | '\r' :: '\n' :: rest => readStatements? limit rest
      | line => do
          let (statement, rest) ← readStatement? line
          return statement :: (← readStatements? limit rest)

/-- Reads a configuration file.  A byte order mark in front of it does not count. -/
def read? (text : List Char) : Option Value := do
  let content :=
    match text with
    | '\ufeff' :: content => content
    | content => content
  ofStatements? (← readStatements? (content.length + 1) content)

example :
    read? "[a]\nb.c = 0x1F # comment\n[[d]]\n".toList =
      some (.table [
        ("a", .table [("b", .table [("c", .integer 31)])]),
        ("d", .array [.table []])]) := by
  cbv

example : read? "a = 1\na = 2".toList = none := by
  cbv

end Toml
end Conformance
