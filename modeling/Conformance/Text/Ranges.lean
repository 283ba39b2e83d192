/-!
# Ranges of code points

A class of characters is a list of code point ranges in increasing order.  Membership stops at
the first range that begins beyond the code point asked for.
-/

namespace Conformance
namespace Text

/-- Code point ranges in increasing order, both ends included. -/
abbrev Ranges := List (Nat × Nat)

namespace Ranges

/-- Whether some range holds the code point. -/
def contains : Ranges → Nat → Bool
  | [], _ => false
  | (first, last) :: later, code =>
      if code < first then false
      else if code ≤ last then true
      else contains later code

end Ranges

end Text
end Conformance
