import Conformance.Message
import Conformance.Proofs.Text.Occurrence
import Mathlib.Data.List.Infix

/-!
# Subscripts

Taking the parts of a text one after the other finds every subscript: the text divides into
subscripts and stretches that hold none, and it does so in one way only.
-/

namespace Conformance
namespace Message

/-- A word: not empty, and of word characters alone. -/
def IsWord (text : List Char) : Prop :=
  text ≠ [] ∧ ∀ character ∈ text, Text.isWord character = true

/-- Whether no word stands in square brackets anywhere in some text. -/
def HoldsNoSubscript (text : List Char) : Prop :=
  ∀ word, IsWord word → ¬ '[' :: word ++ [']'] <:+: text

theorem holdsNoSubscript_nil : HoldsNoSubscript [] := by
  intro word isWord occurs
  simp at occurs

/-- The word of a subscript is read off its brackets. -/
theorem subscript?_eq_some_iff {text word rest : List Char} :
    subscript? text = some (word, rest) ↔ text = '[' :: word ++ ']' :: rest ∧ IsWord word := by
  constructor
  · intro found
    refine ⟨eq_of_subscript?_eq_some found, ?_⟩
    unfold subscript? at found
    split at found
    · split at found
      · next first others isWord _ =>
          obtain ⟨rfl, -⟩ := Prod.mk.inj (Option.some.inj found)
          refine ⟨by simp, ?_⟩
          rw [← isWord]
          exact List.all_eq_true.1 List.all_takeWhile
      · exact nomatch found
    · exact nomatch found
  · rintro ⟨rfl, nonempty, isWord⟩
    obtain ⟨first, others, rfl⟩ := List.exists_cons_of_ne_nil nonempty
    have noWord : ¬ Text.isWord ']' = true := by decide
    rw [List.cons_append, subscript?, List.takeWhile_append_of_pos isWord,
      List.dropWhile_append_of_pos isWord, List.takeWhile_cons_of_neg noWord,
      List.dropWhile_cons_of_neg noWord, List.append_nil]
    rfl

/-- Subscripts are looked for in front of every rest of the text. -/
theorem forall_tails_iff_holdsNoSubscript {text : List Char} :
    (∀ tail ∈ text.tails, subscript? tail = none) ↔ HoldsNoSubscript text := by
  constructor
  · intro absent word isWord occurs
    obtain ⟨tail, ⟨after, tail_eq⟩, isSuffix⟩ := List.infix_iff_prefix_suffix.1 occurs
    have found : subscript? tail = some (word, after) :=
      subscript?_eq_some_iff.2 ⟨by simpa using tail_eq.symm, isWord⟩
    rw [absent tail ((List.mem_tails _ _).2 isSuffix)] at found
    cases found
  · intro noSubscript tail isTail
    rw [Option.eq_none_iff_forall_ne_some]
    rintro ⟨word, after⟩ found
    obtain ⟨tail_eq, isWord⟩ := subscript?_eq_some_iff.1 found
    have begins : '[' :: word ++ [']'] <+: tail := ⟨after, by simp [tail_eq]⟩
    exact noSubscript word isWord
      (begins.isInfix.trans ((List.mem_tails _ _).1 isTail).isInfix)

theorem isWord_iff {text : List Char} :
    (text ≠ [] ∧ text.all Text.isWord = true) ↔ IsWord text := by
  rw [IsWord, List.all_eq_true]

instance (text : List Char) : Decidable (IsWord text) :=
  decidable_of_decidable_of_iff isWord_iff

instance (text : List Char) : Decidable (HoldsNoSubscript text) :=
  decidable_of_iff _ forall_tails_iff_holdsNoSubscript

/-! ## The parts of a text -/

theorem parts_nil : parts [] = [] := by
  rw [parts]

theorem parts_of_subscript?_eq_some
    {text word rest : List Char}
    (found : subscript? text = some (word, rest)) :
    parts text = .subscript word :: parts rest := by
  match text with
  | [] => exact nomatch found
  | character :: text =>
      rw [parts]
      split
      · next other after isFound =>
          rw [found, Option.some.injEq, Prod.mk.injEq] at isFound
          obtain ⟨rfl, rfl⟩ := isFound
          rfl
      · next absent => simp [found] at absent

theorem parts_of_subscript?_eq_none
    {character : Char}
    {text : List Char}
    (absent : subscript? (character :: text) = none) :
    parts (character :: text) = .plain character :: parts text := by
  rw [parts]
  split
  · next word rest found => simp [absent] at found
  · rfl

theorem escape_nil : escape [] = [] := by
  rw [escape, parts_nil]
  rfl

theorem escape_of_subscript?_eq_some
    {text word rest : List Char}
    (found : subscript? text = some (word, rest)) :
    escape text = (Part.subscript word).escaped ++ escape rest := by
  rw [escape, parts_of_subscript?_eq_some found]
  rfl

theorem escape_of_subscript?_eq_none
    {character : Char}
    {text : List Char}
    (absent : subscript? (character :: text) = none) :
    escape (character :: text) = (Part.plain character).escaped ++ escape text := by
  rw [escape, parts_of_subscript?_eq_none absent]
  rfl

/-- A character without a meaning in a literal is written as it is. -/
theorem escaped_plain
    {character : Char}
    (notBackslash : character ≠ '\\')
    (notQuote : character ≠ '"') :
    (Part.plain character).escaped = [character] := by
  unfold Part.escaped
  split
  · next same => exact absurd (Part.plain.inj same) notBackslash
  · next same => exact absurd (Part.plain.inj same) notQuote
  · next same => rw [Part.plain.inj same]
  · next same => exact nomatch same

/-! ## Words between stretches -/

/-- Words that stand between stretches of other text. -/
structure Spliced where
  /-- The stretch before the first word. -/
  front : List Char
  /-- The words, each with the stretch behind it. -/
  later : List (List Char × List Char)
deriving DecidableEq, Repr

namespace Spliced

/-- The words. -/
def words (spliced : Spliced) : List (List Char) :=
  spliced.later.map Prod.fst

/-- The stretches. -/
def stretches (spliced : Spliced) : List (List Char) :=
  spliced.front :: spliced.later.map Prod.snd

/-- The whole text when something is written in front of every word and something behind it. -/
def text (opening closing : List Char) (spliced : Spliced) : List Char :=
  spliced.front ++ spliced.later.flatMap fun (word, stretch) =>
    opening ++ word ++ closing ++ stretch

/-- More text in front. -/
def behind (earlier : List Char) (spliced : Spliced) : Spliced :=
  { spliced with front := earlier ++ spliced.front }

/-- One more word in front, with text around it that goes to the stretches. -/
def behindWord (opening word closing : List Char) (spliced : Spliced) : Spliced where
  front := opening
  later := (word, closing ++ spliced.front) :: spliced.later

/-- Whether the words are the subscripts of a text, all of them: none stands in a stretch. -/
structure Divides (spliced : Spliced) (source : List Char) : Prop where
  /-- The words in square brackets and the stretches make up the text. -/
  text_eq : spliced.text ['['] [']'] = source
  /-- The words are words. -/
  isWord : ∀ word ∈ spliced.words, IsWord word
  /-- No stretch holds a word in square brackets. -/
  noSubscript : ∀ stretch ∈ spliced.stretches, HoldsNoSubscript stretch

/-- The words of the subscripts among some parts, with text around each that goes to the
stretches. -/
def ofParts (opening closing : List Char) : List Part → Spliced
  | [] => ⟨[], []⟩
  | .plain character :: parts => (ofParts opening closing parts).behind [character]
  | .subscript word :: parts => (ofParts opening closing parts).behindWord opening word closing

theorem divides_iff {spliced : Spliced} {source : List Char} :
    (spliced.text ['['] [']'] = source ∧ (∀ word ∈ spliced.words, IsWord word) ∧
      ∀ stretch ∈ spliced.stretches, HoldsNoSubscript stretch) ↔ spliced.Divides source :=
  ⟨fun ⟨text_eq, isWord, noSubscript⟩ => ⟨text_eq, isWord, noSubscript⟩,
    fun divides => ⟨divides.text_eq, divides.isWord, divides.noSubscript⟩⟩

instance (spliced : Spliced) (source : List Char) : Decidable (spliced.Divides source) :=
  decidable_of_iff _ divides_iff

variable (opening word closing earlier : List Char) (spliced : Spliced)

@[simp]
theorem words_behind : (spliced.behind earlier).words = spliced.words :=
  rfl

@[simp]
theorem words_behindWord :
    (spliced.behindWord opening word closing).words = word :: spliced.words :=
  rfl

@[simp]
theorem text_behind (before after : List Char) :
    (spliced.behind earlier).text before after = earlier ++ spliced.text before after :=
  List.append_assoc _ _ _

@[simp]
theorem text_behindWord (before after : List Char) :
    (spliced.behindWord opening word closing).text before after =
      opening ++ before ++ word ++ after ++ closing ++ spliced.text before after := by
  simp [behindWord, text]

theorem behind_behind (other : List Char) :
    (spliced.behind earlier).behind other = spliced.behind (other ++ earlier) := by
  simp [behind]

end Spliced

/-! ## The division of a text -/

/-- A subscript ends in front of the bracket that opens another one. -/
theorem subscript_begins_stretch
    {word stretch rest : List Char}
    {character : Char}
    (isWord : IsWord word)
    (stops : rest = [] ∨ ∃ behind, rest = '[' :: behind)
    (begins : '[' :: word ++ [']'] <+: character :: stretch ++ rest) :
    '[' :: word ++ [']'] <+: character :: stretch := by
  obtain rfl | ⟨behind, rfl⟩ := stops
  · rwa [List.append_nil] at begins
  · obtain ⟨rfl, further⟩ := List.cons_prefix_cons.1 begins
    have absent : '[' ∉ word ++ [']'] := by
      intro member
      rcases List.mem_append.1 member with inWord | isLast
      · exact absurd (isWord.2 _ inWord) (by decide)
      · simp at isLast
    exact List.cons_prefix_cons.2 ⟨rfl, Text.prefix_of_prefix_append_cons absent further⟩

/-- The parts of a stretch without subscripts are its characters. -/
theorem parts_append_of_noSubscript
    {stretch rest : List Char}
    (noSubscript : HoldsNoSubscript stretch)
    (stops : rest = [] ∨ ∃ behind, rest = '[' :: behind) :
    parts (stretch ++ rest) = stretch.map Part.plain ++ parts rest := by
  induction stretch with
  | nil => rfl
  | cons character stretch inductionHypothesis =>
      have absent : subscript? (character :: (stretch ++ rest)) = none := by
        rw [Option.eq_none_iff_forall_ne_some]
        rintro ⟨word, after⟩ found
        obtain ⟨text_eq, isWord⟩ := subscript?_eq_some_iff.1 found
        have begins : '[' :: word ++ [']'] <+: character :: stretch ++ rest :=
          ⟨after, by simpa using text_eq.symm⟩
        exact noSubscript word isWord (subscript_begins_stretch isWord stops begins).isInfix
      rw [List.cons_append, parts_of_subscript?_eq_none absent, inductionHypothesis]
      · rfl
      · intro word isWord occurs
        exact noSubscript word isWord (occurs.trans (List.suffix_cons _ _).isInfix)

theorem parts_subscript_append {word : List Char} (isWord : IsWord word) (rest : List Char) :
    parts ('[' :: word ++ ']' :: rest) = .subscript word :: parts rest :=
  parts_of_subscript?_eq_some (subscript?_eq_some_iff.2 ⟨rfl, isWord⟩)

namespace Spliced

theorem ofParts_plain_append (stretch : List Char) (parts : List Part) :
    ofParts opening closing (stretch.map Part.plain ++ parts) =
      (ofParts opening closing parts).behind stretch := by
  induction stretch with
  | nil => rfl
  | cons character stretch inductionHypothesis =>
      rw [List.map_cons, List.cons_append, ofParts, inductionHypothesis, behind_behind,
        List.singleton_append]

/-- Text around the words may as well be written when the words are spliced in. -/
theorem text_ofParts (parts : List Part) :
    (ofParts opening closing parts).text [] [] = (ofParts [] [] parts).text opening closing := by
  induction parts with
  | nil => rfl
  | cons part parts inductionHypothesis => cases part <;> simp [ofParts, inductionHypothesis]

theorem words_ofParts (parts : List Part) :
    (ofParts opening closing parts).words = (ofParts [] [] parts).words := by
  induction parts with
  | nil => rfl
  | cons part parts inductionHypothesis => cases part <;> simp [ofParts, inductionHypothesis]

/-- The parts of a text divide it at its subscripts. -/
theorem divides_ofParts (source : List Char) : (ofParts [] [] (parts source)).Divides source := by
  induction source using parts.induct with
  | case1 =>
      rw [parts_nil]
      refine ⟨rfl, by simp [ofParts, words], ?_⟩
      exact List.forall_mem_singleton.2 holdsNoSubscript_nil
  | case2 character text word rest found inductionHypothesis =>
      obtain ⟨text_eq, isWord⟩ := subscript?_eq_some_iff.1 found
      rw [parts_of_subscript?_eq_some found, ofParts]
      constructor
      · simp [inductionHypothesis.text_eq, text_eq]
      · simpa using ⟨isWord, inductionHypothesis.isWord⟩
      · intro stretch member
        rcases List.mem_cons.1 member with rfl | isLater
        · exact holdsNoSubscript_nil
        · exact inductionHypothesis.noSubscript stretch isLater
  | case3 character text absent inductionHypothesis =>
      rw [parts_of_subscript?_eq_none absent, ofParts]
      constructor
      · simp [inductionHypothesis.text_eq]
      · exact inductionHypothesis.isWord
      · obtain ⟨frontIsFree, othersAreFree⟩ :=
          List.forall_mem_cons.1 inductionHypothesis.noSubscript
        refine List.forall_mem_cons.2 ⟨?_, othersAreFree⟩
        intro word isWord occurs
        rcases List.infix_cons_iff.1 occurs with begins | inFront
        · -- A subscript at the character would have been found there.
          have inText : (ofParts [] [] (parts text)).front <+: text :=
            ⟨_, inductionHypothesis.text_eq⟩
          obtain ⟨after, text_eq⟩ := begins.trans (List.cons_prefix_cons.2 ⟨rfl, inText⟩)
          have found : subscript? (character :: text) = some (word, after) :=
            subscript?_eq_some_iff.2 ⟨by simpa using text_eq.symm, isWord⟩
          rw [absent] at found
          cases found
        · exact frontIsFree word isWord inFront

/-- A division of a text at its subscripts is the one that its parts make. -/
theorem Divides.eq_ofParts
    {spliced : Spliced}
    {source : List Char}
    (divides : spliced.Divides source) :
    spliced = ofParts [] [] (parts source) := by
  obtain ⟨front, later⟩ := spliced
  obtain ⟨rfl, isWord, noSubscript⟩ := divides
  induction later generalizing front with
  | nil =>
      have frontIsFree : HoldsNoSubscript front := noSubscript front List.mem_cons_self
      rw [text, List.flatMap_nil, parts_append_of_noSubscript frontIsFree (.inl rfl), parts_nil,
        ofParts_plain_append]
      simp [ofParts, behind]
  | cons item later inductionHypothesis =>
      obtain ⟨word, stretch⟩ := item
      obtain ⟨firstIsWord, othersAreWords⟩ := List.forall_mem_cons.1 isWord
      have frontIsFree : HoldsNoSubscript front := noSubscript front List.mem_cons_self
      have later_eq := inductionHypothesis stretch othersAreWords
        (List.forall_mem_cons.1 noSubscript).2
      have source_eq : text ['['] [']'] ⟨front, (word, stretch) :: later⟩ =
          front ++ ('[' :: word ++ ']' :: text ['['] [']'] ⟨stretch, later⟩) := by
        simp [text]
      have stops : ∃ behind,
          '[' :: word ++ ']' :: text ['['] [']'] ⟨stretch, later⟩ = '[' :: behind :=
        ⟨_, rfl⟩
      rw [source_eq, parts_append_of_noSubscript frontIsFree (.inr stops),
        parts_subscript_append firstIsWord, ofParts_plain_append, ofParts, ← later_eq]
      simp [behind, behindWord]

end Spliced

end Message
end Conformance
