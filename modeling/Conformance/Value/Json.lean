import Conformance.Value

/-!
# JSON text of a value

Values are written as JSON over several lines: two spaces of indentation for each level, each
member of an array or table on a line of its own, and nothing between the brackets of an empty
one.
-/

namespace Conformance
namespace Value

/-- The lower case hexadecimal digit of a number below sixteen. -/
def hexDigit (number : Nat) : Char :=
  if number < 10 then Char.ofNat (48 + number) else Char.ofNat (87 + number)

/-- How a character is written inside a JSON string.  Quotes, backslashes and control characters
are escaped and all else stands for itself. -/
def jsonCharacter (character : Char) : List Char :=
  match character with
  | '"' => ['\\', '"']
  | '\\' => ['\\', '\\']
  | '\x08' => ['\\', 'b']
  | '\x0c' => ['\\', 'f']
  | '\n' => ['\\', 'n']
  | '\r' => ['\\', 'r']
  | '\t' => ['\\', 't']
  | other =>
      if other.toNat < 0x20 then
        ['\\', 'u', '0', '0', hexDigit (other.toNat / 16), hexDigit (other.toNat % 16)]
      else [other]

/-- A JSON string. -/
def jsonString (text : String) : String :=
  String.ofList ('"' :: text.toList.flatMap jsonCharacter ++ ['"'])

/-- A line break and the indentation of a level. -/
def jsonBreak (level : Nat) : String :=
  String.ofList ('\n' :: List.replicate (2 * level) ' ')

mutual

/-- The JSON text of a value that stands at a level of indentation. -/
def jsonText (level : Nat) : Value → String
  | .null => "null"
  | .bool truth => if truth then "true" else "false"
  | .integer number => toString number
  | .decimal written => written
  | .date written => jsonString written
  | .string text => jsonString text
  | .array elements =>
      if elements.isEmpty then "[]"
      else "[" ++ jsonElements (level + 1) true elements ++ jsonBreak level ++ "]"
  | .table entries =>
      if entries.isEmpty then "\x7b\x7d"
      else "\x7b" ++ jsonEntries (level + 1) true entries ++ jsonBreak level ++ "\x7d"

/-- The elements of an array, each one on a line of its own. -/
def jsonElements (level : Nat) (isFirst : Bool) : List Value → String
  | [] => ""
  | element :: rest =>
      (if isFirst then "" else ",") ++ jsonBreak level ++ jsonText level element ++
        jsonElements level false rest

/-- The entries of a table, each one on a line of its own. -/
def jsonEntries (level : Nat) (isFirst : Bool) : List (String × Value) → String
  | [] => ""
  | (name, value) :: rest =>
      (if isFirst then "" else ",") ++ jsonBreak level ++ jsonString name ++ ": " ++
        jsonText level value ++ jsonEntries level false rest

end

/-- The JSON text of a value. -/
def toJson (value : Value) : String :=
  jsonText 0 value

example :
    toJson (.table [("names", .array [.string "a\n", .null]), ("count", .integer 2)]) =
      "\x7b\n  \"names\": [\n    \"a\\n\",\n    null\n  ],\n  \"count\": 2\n\x7d" := by
  cbv

end Value
end Conformance
