import Conformance.Markup.Reference

/-!
# Reading attributes

What stands in a tag behind its name.  Names are not checked, and no white space is needed between
attributes.  White space in tags is space, tab, carriage return and line feed.
-/

namespace Conformance
namespace Markup
namespace Attribute

/-- Whether a character separates the parts of a tag. -/
def isSpace (character : Char) : Bool :=
  character == ' ' || character == '\t' || character == '\r' || character == '\n'

/-- The text without the white space that it begins with. -/
def afterSpace (text : List Char) : List Char :=
  text.dropWhile isSpace

theorem length_afterSpace_le (text : List Char) : (afterSpace text).length ≤ text.length :=
  (List.dropWhile_sublist isSpace).length_le

/-- The name of an attribute at the beginning of a nonempty text, and what follows it.  The name
has at least one character. -/
def readName (first : Char) (text : List Char) : List Char × List Char :=
  let belongs := fun character => !(isSpace character || character == '=')
  (first :: text.takeWhile belongs, text.dropWhile belongs)

theorem length_readName_le (first : Char) (text : List Char) :
    (readName first text).2.length ≤ text.length :=
  (List.dropWhile_sublist _).length_le

/-- What follows the equals sign behind the name of an attribute. -/
def afterEquals? (text : List Char) : Option (List Char) :=
  match afterSpace text with
  | '=' :: rest => some rest
  | _ => none

theorem length_lt_of_afterEquals?
    {text rest : List Char}
    (found : afterEquals? text = some rest) :
    rest.length < text.length := by
  unfold afterEquals? at found
  split at found
  · next after equal =>
      obtain rfl := Option.some.inj found
      have shorter := length_afterSpace_le text
      rw [equal] at shorter
      simp only [List.length_cons] at shorter
      omega
  · exact nomatch found

/-- A quoted value at the beginning of a text, after white space, and what follows the closing
quote.  `length` is the byte length of the whole tag. -/
def readValue? (length : Nat) (text : List Char) : Except Fault (List Char × List Char) :=
  match afterSpace text with
  | [] => .error (.valueExpected length)
  | quote :: rest =>
      if quote = '"' ∨ quote = '\'' then
        match rest.dropWhile (· != quote) with
        | [] => .error (.quoteExpected length quote)
        | _ :: after => .ok (rest.takeWhile (· != quote), after)
      else .error (.valueNotQuoted (length - Text.byteSize (quote :: rest)))

theorem length_le_of_readValue?
    {length : Nat}
    {text value rest : List Char}
    (found : readValue? length text = .ok (value, rest)) :
    rest.length ≤ text.length := by
  have shorter := length_afterSpace_le text
  unfold readValue? at found
  split at found
  · cases found
  · next quote after equal =>
      split at found
      · have inner := (List.dropWhile_sublist (· != quote) (l := after)).length_le
        split at found
        · cases found
        · next closing later closed =>
            simp only [Except.ok.injEq, Prod.mk.injEq] at found
            obtain ⟨-, rfl⟩ := found
            rw [closed] at inner
            rw [equal] at shorter
            simp only [List.length_cons] at inner shorter
            omega
      · cases found

/-- The attributes in what is left of a tag.  `length` is the byte length of the whole tag, which
`text` ends, and `seen` holds the names that were read with their positions. -/
def readAll
    (length : Nat)
    (seen : List (List Char × Nat))
    (text : List Char) :
    Except Fault (List (String × String)) :=
  match _left : afterSpace text with
  | [] => .ok []
  | first :: later =>
      let position := length - Text.byteSize (first :: later)
      let name := (readName first later).1
      match _equals : afterEquals? (readName first later).2 with
      | none =>
          .error (.equalsExpected
            (length - Text.byteSize (afterSpace (readName first later).2)))
      | some afterEquals =>
          match seen.lookup name with
          | some earlier => .error (.duplicatedAttribute position earlier)
          | none =>
              match _value : readValue? length afterEquals with
              | .error fault => .error fault
              | .ok (written, rest) => do
                  let value ← Reference.resolveAll written
                  let others ← readAll length ((name, position) :: seen) rest
                  return (String.ofList name, String.ofList value) :: others
termination_by text.length
decreasing_by
  have first := length_afterSpace_le text
  rw [_left] at first
  have second := length_readName_le ‹_› later
  have third := length_lt_of_afterEquals? _equals
  have fourth := length_le_of_readValue? _value
  simp only [List.length_cons] at first
  omega

end Attribute
end Markup
end Conformance
