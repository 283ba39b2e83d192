/-!
# Literal text

Inside this library text is a list of characters.  A string literal that stands among such lists
is read as the list of its characters, and stays folded until a proof asks for them.
-/

namespace Conformance
namespace Text

/-- The characters of a literal. -/
@[irreducible]
def chars (literal : String) : List Char :=
  literal.toList

theorem chars_eq_toList (literal : String) : chars literal = literal.toList := by
  rw [chars]

/-- The characters of a literal are the ones it is made of. -/
theorem chars_ofList (characters : List Char) : chars (String.ofList characters) = characters := by
  rw [chars, String.toList_ofList]

scoped instance coeChars : Coe String (List Char) := ⟨chars⟩

end Text
end Conformance
