/-!
# Byte positions

Positions in text are counted in bytes of its UTF-8 form.  A byte position need not fall between
two characters; a cut inside a character is made in front of it.
-/

namespace Conformance
namespace Text

/-- Number of bytes in the UTF-8 form of the characters. -/
def byteSize : List Char → Nat
  | [] => 0
  | character :: rest => character.utf8Size + byteSize rest

@[simp]
theorem byteSize_nil : byteSize [] = 0 :=
  rfl

@[simp]
theorem byteSize_cons (character : Char) (rest : List Char) :
    byteSize (character :: rest) = character.utf8Size + byteSize rest :=
  rfl

@[simp]
theorem byteSize_append (front back : List Char) :
    byteSize (front ++ back) = byteSize front + byteSize back := by
  induction front with
  | nil => simp
  | cons character rest inductionHypothesis =>
      simp only [List.cons_append, byteSize_cons, inductionHypothesis, Nat.add_assoc]

/-- The characters before a byte position and the others.  A character that the position falls
inside is among the others. -/
def cutAt : Nat → List Char → List Char × List Char
  | _, [] => ([], [])
  | position, character :: rest =>
      if character.utf8Size ≤ position then
        let (before, others) := cutAt (position - character.utf8Size) rest
        (character :: before, others)
      else
        ([], character :: rest)

/-- A cut keeps every character in its place. -/
theorem cutAt_fst_append_snd (position : Nat) (characters : List Char) :
    (cutAt position characters).1 ++ (cutAt position characters).2 = characters := by
  induction characters generalizing position with
  | nil => rfl
  | cons character rest inductionHypothesis =>
      unfold cutAt
      split
      · simp [inductionHypothesis]
      · simp

/-- Whether a byte position falls between two characters or at an end. -/
def isBoundary (position : Nat) (characters : List Char) : Bool :=
  byteSize (cutAt position characters).1 == position

example : isBoundary 2 "é!".toList ∧ ¬ isBoundary 1 "é!".toList := by decide

end Text
end Conformance
