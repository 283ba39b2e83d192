/-!
# Data values

The values that records are written in: what a JSON text or a configuration file can say.
-/

namespace Conformance

/-- A value of a data format. -/
inductive Value where
  /-- The absent value. -/
  | null
  /-- A truth value. -/
  | bool (truth : Bool)
  /-- A number written without fraction and exponent. -/
  | integer (number : Int)
  /-- A number written with a fraction or an exponent, or one that is not finite. -/
  | decimal (written : String)
  /-- A date, a time or both. -/
  | date (written : String)
  /-- A piece of text. -/
  | string (text : String)
  /-- A sequence of values. -/
  | array (elements : List Value)
  /-- Values under names. -/
  | table (entries : List (String × Value))
deriving Inhabited, Repr

namespace Value

/-- The truth value that is meant. -/
def toBool? : Value → Option Bool
  | .bool truth => some truth
  | _ => none

/-- The text that is meant. -/
def toText? : Value → Option String
  | .string text => some text
  | _ => none

/-- A name out of a fixed set: the text itself, or the only name of a table, without a value. -/
def toName? : Value → Option String
  | .string name => some name
  | .table [(name, .null)] => some name
  | _ => none

/-- The natural number that is meant, if it is at most `limit`. -/
def toNat? (limit : Nat) : Value → Option Nat
  | .integer (.ofNat number) => if number ≤ limit then some number else none
  | _ => none

/-- The elements of a sequence, each one decoded. -/
def toList? {α : Type} (decode : Value → Option α) : Value → Option (List α)
  | .array elements => elements.mapM decode
  | _ => none

/-- A sequence of texts. -/
def toTexts? : Value → Option (List String) :=
  toList? toText?

/-- The entries of a table, each value decoded. -/
def toEntries? {α : Type} (decode : Value → Option α) : Value → Option (List (String × α))
  | .table entries => entries.mapM fun (name, value) => (decode value).map (name, ·)
  | _ => none

/-- Accepts the absent value beside those that `decode` accepts. -/
def nullable {α : Type} (decode : Value → Option α) : Value → Option (Option α)
  | .null => some none
  | value => (decode value).map some

/-- The value that stands for an optional one. -/
def ofOption {α : Type} (encode : α → Value) : Option α → Value
  | none => .null
  | some content => encode content

/-- A sequence of texts. -/
def ofTexts (texts : List String) : Value :=
  .array (texts.map .string)

/-- A natural number. -/
def ofNat (number : Nat) : Value :=
  .integer (.ofNat number)

/-- The largest number that an unsigned 32-bit field holds. -/
def maxUnsigned32 : Nat :=
  Nat.pow 2 32 - 1

/-- The largest number that an unsigned 64-bit field holds. -/
def maxUnsigned64 : Nat :=
  Nat.pow 2 64 - 1

end Value

end Conformance
