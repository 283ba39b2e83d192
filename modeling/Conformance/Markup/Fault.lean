/-!
# Faults of markup

What can be wrong with a document source, and how it is reported.  Positions and ranges inside a
fault count bytes from the beginning of the tag or text that is at fault.
-/

namespace Conformance
namespace Markup

/-- What is wrong with the number of a character reference. -/
inductive NumberFault where
  /-- The number has a sign. -/
  | sign
  /-- The number has no digits. -/
  | empty
  /-- Something in the number is no digit. -/
  | digit
  /-- The number has more than 32 bits. -/
  | tooLarge
  /-- The number is zero. -/
  | zero
  /-- No character has that number. -/
  | noCharacter (number : Nat)
deriving DecidableEq, Inhabited, Repr

/-- The fault in words. -/
def NumberFault.message : NumberFault → String
  | .sign => "unexpected number sign"
  | .empty => "cannot parse integer from empty string"
  | .digit => "invalid digit found in string"
  | .tooLarge => "number too large to fit in target type"
  | .zero => "0x0 character is not permitted in XML"
  | .noCharacter number => s!"`{number}` is not a valid codepoint"

/-- What is wrong with a document source. -/
inductive Fault where
  /-- A tag is not closed. -/
  | tagNotClosed
  /-- Neither comment nor character data nor document type follows `<!`. -/
  | unknownDeclaration
  /-- A comment is not closed. -/
  | commentNotClosed
  /-- A section of character data is not closed. -/
  | dataNotClosed
  /-- A document type is not closed. -/
  | doctypeNotClosed
  /-- A processing instruction is not closed. -/
  | instructionNotClosed
  /-- A document type has no name. -/
  | doctypeWithoutName
  /-- An element is closed while none is open. -/
  | nothingToClose (name : String)
  /-- Another element is closed than the innermost open one. -/
  | closesOther (expected found : String)
  /-- Something else than an equals sign follows the name of an attribute. -/
  | equalsExpected (position : Nat)
  /-- An attribute ends after its equals sign. -/
  | valueExpected (position : Nat)
  /-- The value of an attribute is not quoted. -/
  | valueNotQuoted (position : Nat)
  /-- The value of an attribute has no closing quote. -/
  | quoteExpected (position : Nat) (quote : Char)
  /-- An attribute occurs twice. -/
  | duplicatedAttribute (position earlier : Nat)
  /-- An ampersand begins no reference. -/
  | referenceNotClosed (first last : Nat)
  /-- A reference has an unknown name. -/
  | unknownReference (first last : Nat) (name : String)
  /-- A character reference has a bad number. -/
  | characterReference (fault : NumberFault)
  /-- Another element stands beside the root. -/
  | contentAfterRoot
  /-- An element is not closed. -/
  | elementNotClosed (name : String)
  /-- There is no element at all. -/
  | noRoot
deriving DecidableEq, Inhabited, Repr

/-- The fault in words. -/
def Fault.message : Fault → String
  | .tagNotClosed => "syntax error: tag not closed: `>` not found before end of input"
  | .unknownDeclaration => "syntax error: unknown or missed symbol in markup"
  | .commentNotClosed => "syntax error: comment not closed: `-->` not found before end of input"
  | .dataNotClosed => "syntax error: CDATA not closed: `]]>` not found before end of input"
  | .doctypeNotClosed => "syntax error: DOCTYPE not closed: `>` not found before end of input"
  | .instructionNotClosed =>
      "syntax error: processing instruction or xml declaration not closed: `?>` not found before "
        ++ "end of input"
  | .doctypeWithoutName =>
      "ill-formed document: `<!DOCTYPE>` declaration does not contain a name of a document type"
  | .nothingToClose name =>
      s!"ill-formed document: close tag `</{name}>` does not match any open tag"
  | .closesOther expected found =>
      s!"ill-formed document: expected `</{expected}>`, but `</{found}>` was found"
  | .equalsExpected position =>
      s!"position {position}: attribute key must be directly followed by `=` or space"
  | .valueExpected position =>
      s!"position {position}: `=` must be followed by an attribute value"
  | .valueNotQuoted position =>
      s!"position {position}: attribute value must be enclosed in `\"` or `'`"
  | .quoteExpected position quote =>
      s!"position {position}: missing closing quote `{quote}` in attribute value"
  | .duplicatedAttribute position earlier =>
      s!"position {position}: duplicated attribute, previous declaration at position {earlier}"
  | .referenceNotClosed first last =>
      s!"Error while escaping character at range {first}..{last}: Cannot find ';' after '&'"
  | .unknownReference first last name => s!"at {first}..{last}: unrecognized entity `{name}`"
  | .characterReference fault => s!"invalid character reference: {fault.message}"
  | .contentAfterRoot => "content after the root element"
  | .elementNotClosed name => s!"unclosed element <{name}>"
  | .noRoot => "no root element"

/-- A fault and the byte position in the source where it is noticed. -/
structure Refusal where
  /-- The position in the source. -/
  position : Nat
  /-- What is wrong. -/
  fault : Fault
deriving DecidableEq, Inhabited, Repr

end Markup
end Conformance
