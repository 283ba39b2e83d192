import Conformance.Text.Ranges

/-!
# Blank characters

The characters with the Unicode property `White_Space`, and the words they separate.
-/

namespace Conformance
namespace Text

/-- The code points with the property `White_Space`. -/
def blankRanges : Ranges :=
  [(0x9, 0xD), (0x20, 0x20), (0x85, 0x85), (0xA0, 0xA0), (0x1680, 0x1680), (0x2000, 0x200A),
   (0x2028, 0x2029), (0x202F, 0x202F), (0x205F, 0x205F), (0x3000, 0x3000)]

/-- Whether a character counts as white space. -/
def isBlank (character : Char) : Bool :=
  blankRanges.contains character.toNat

/-- The maximal runs of characters that are not blank. -/
def words (characters : List Char) : List (List Char) :=
  (characters.splitOnP isBlank).filter fun word => !word.isEmpty

example : isBlank '\n' ∧ isBlank '\x0b' ∧ isBlank '\u3000' ∧ ¬ isBlank '\u200b' := by decide

example : words "  a\tbc ".toList = [['a'], ['b', 'c']] := by decide

end Text
end Conformance
