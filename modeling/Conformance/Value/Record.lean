import Conformance.Value

/-!
# Records

A record is written as a table of its fields or as an array of them in their fixed order.  A
table may hold other names as well; an array may stop early but holds no more than the fields.  A
date counts as a record of which no field is written.
-/

namespace Conformance

/-- The fields of a record that are written down. -/
structure Record where
  /-- The written values under the names of their fields. -/
  fields : List (String × Value)

namespace Record

/-- Reads a value as a record whose fields have the given names and order. -/
def ofValue? (names : List String) : Value → Option Record
  | .table entries => some ⟨entries⟩
  | .array elements =>
      if elements.length ≤ names.length then some ⟨names.zip elements⟩ else none
  | .date _ => some ⟨[]⟩
  | _ => none

/-- The value of a field that has to be written. -/
def required
    {α : Type}
    (record : Record)
    (name : String)
    (decode : Value → Option α) :
    Option α :=
  (record.fields.lookup name).bind decode

/-- The value of a field that stands for `fallback` when it is not written. -/
def withDefault
    {α : Type}
    (record : Record)
    (name : String)
    (fallback : α)
    (decode : Value → Option α) :
    Option α :=
  match record.fields.lookup name with
  | none => some fallback
  | some value => decode value

/-- The value of a field that may be absent or not written. -/
def optional
    {α : Type}
    (record : Record)
    (name : String)
    (decode : Value → Option α) :
    Option (Option α) :=
  record.withDefault name none (Value.nullable decode)

end Record

end Conformance
