import Conformance.Markup.Fault
import Conformance.Text.ByteSize
import Conformance.Text.Literal
import Conformance.Value

/-!
# References in markup text

Text and attribute values may refer to characters by name, as in `&lt;`, or by number, as in
`&#60;` and `&#x3c;`.
-/

namespace Conformance
namespace Markup
namespace Reference

open scoped Text

/-- The value of a digit to a base of at most sixteen. -/
def digitValue? (base : Nat) (character : Char) : Option Nat :=
  let value :=
    if character.isDigit then character.toNat - '0'.toNat
    else if 'a' ≤ character ∧ character ≤ 'f' then character.toNat - 'a'.toNat + 10
    else if 'A' ≤ character ∧ character ≤ 'F' then character.toNat - 'A'.toNat + 10
    else base
  if value < base then some value else none

/-- Reads one more digit of a number of at most 32 bits. -/
def readDigit (base : Nat) (number : Nat) (character : Char) : Except NumberFault Nat :=
  match digitValue? base character with
  | none => .error .digit
  | some value =>
      let larger := number * base + value
      if larger ≤ Value.maxUnsigned32 then .ok larger else .error .tooLarge

/-- The number that some digits write. -/
def readNumber (base : Nat) (digits : List Char) : Except NumberFault Nat :=
  match digits with
  | [] => .error .empty
  | '+' :: _ => .error .sign
  | '-' :: _ => .error .sign
  | _ => digits.foldlM (readDigit base) 0

/-- The character of a number. -/
def ofNumber (number : Nat) : Except NumberFault Char :=
  if number = 0 then .error .zero
  else if number.isValidChar then .ok (Char.ofNat number)
  else .error (.noCharacter number)

/-- The character that a reference by number means; the digits are hexadecimal behind an `x`. -/
def ofDigits (digits : List Char) : Except NumberFault Char := do
  match digits with
  | 'x' :: hexadecimal => ofNumber (← readNumber 16 hexadecimal)
  | decimal => ofNumber (← readNumber 10 decimal)

/-- The references by name. -/
def named : List (List Char × Char) :=
  [("lt", '<'), ("gt", '>'), ("amp", '&'), ("apos", '\''), ("quot", '"')]

/-- The character that the reference with this name means; the name stands at `position`. -/
def resolve (position : Nat) (name : List Char) : Except Fault Char :=
  match name with
  | '#' :: digits => (ofDigits digits).mapError .characterReference
  | _ =>
      match named.lookup name with
      | some character => .ok character
      | none =>
          .error (.unknownReference position (position + Text.byteSize name) (String.ofList name))

/-- Replaces the references in what follows a position of some text by their characters; the
whole text ends at position `last`. -/
def resolveFrom (last : Nat) (position : Nat) : List Char → Except Fault (List Char)
  | [] => .ok []
  | character :: text =>
      if character = '&' then
        let name := text.takeWhile fun other => other != '&' && other != ';'
        match _found : text.dropWhile fun other => other != '&' && other != ';' with
        | ';' :: rest => do
            let meant ← resolve (position + 1) name
            let later ← resolveFrom last (position + Text.byteSize name + 2) rest
            return meant :: later
        | _ => .error (.referenceNotClosed position last)
      else do
        let later ← resolveFrom last (position + character.utf8Size) text
        return character :: later
termination_by text => text.length
decreasing_by
  · have shorter := (List.dropWhile_sublist (fun other => other != '&' && other != ';')
      (l := text)).length_le
    rw [_found] at shorter
    simp only [List.length_cons] at shorter ⊢
    omega
  · simp

/-- Replaces all references in a text by their characters. -/
def resolveAll (text : List Char) : Except Fault (List Char) :=
  resolveFrom (Text.byteSize text) 0 text

end Reference
end Markup
end Conformance
