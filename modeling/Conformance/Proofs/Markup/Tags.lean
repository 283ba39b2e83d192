import Conformance.Markup.Event
import Conformance.Proofs.Markup.Escaping
import Mathlib.Data.List.Nodup

/-!
# Reading written tags

A tag whose names are made of letters, digits and a few marks is read as it was written: the names
end where they end, the values stand between quotes that they do not hold, and the bracket that
closes the tag is the first one outside quotes.
-/

namespace Conformance
namespace Markup

open scoped Text

/-- Whether a character can stand in a name behind the first one. -/
def isNameCharacter (character : Char) : Bool :=
  character.isAlphanum || ['-', '_', '.', ':'].contains character

/-- Whether a text is a name: a letter, and then letters, digits and marks. -/
def isName : List Char → Bool
  | [] => false
  | first :: rest => first.isAlpha && rest.all isNameCharacter

theorem isNameCharacter_of_isName
    {name : List Char}
    (named : isName name = true)
    {character : Char}
    (member : character ∈ name) :
    isNameCharacter character = true := by
  cases name with
  | nil => cases member
  | cons first rest =>
      obtain ⟨isLetter, areMarks⟩ := Bool.and_eq_true_iff.1 named
      rcases List.mem_cons.1 member with rfl | behind
      · simp [isNameCharacter, Char.isAlphanum, isLetter]
      · exact List.all_eq_true.1 areMarks character behind

/-- A name holds no character that is none of its kind. -/
theorem ne_of_isName
    {name : List Char}
    (named : isName name = true)
    {special : Char}
    (isSpecial : isNameCharacter special = false) :
    ∀ character ∈ name, character ≠ special := by
  rintro character member rfl
  rw [isNameCharacter_of_isName named member] at isSpecial
  cases isSpecial

/-- No character of a name ends a tag or begins a value. -/
theorem forall_plain_of_isName {name : List Char} (named : isName name = true) :
    ∀ character ∈ name, character ≠ '>' ∧ character ≠ '"' ∧ character ≠ '\'' := by
  intro character member
  exact ⟨ne_of_isName named rfl character member, ne_of_isName named rfl character member,
    ne_of_isName named rfl character member⟩

theorem ne_nil_of_isName {name : List Char} (named : isName name = true) : name ≠ [] := by
  rintro rfl
  cases named

/-- Whether the tag of an element can be written in HTML and read back: its names are names, no
attribute repeats a name, and the element has an end tag and text that is escaped. -/
structure Tag.Writable (tag : Tag) : Prop where
  named : isName tag.name.toList = true
  attributesNamed : ∀ entry ∈ tag.attributes, isName entry.1.toList = true
  distinct : (tag.attributes.map Prod.fst).Nodup
  notVoid : tag.name ∉ Html.voidNames
  notRawText : tag.name ∉ Html.rawTextNames

namespace Html

theorem attributeText_eq (name value : String) :
    attributeText (name, value) =
      ' ' :: (name.toList ++ '=' :: '"' :: (escape value.toList ++ ['"'])) := by
  simp [attributeText, Text.chars_eq_toList]

/-- What stands between the brackets of a start tag. -/
def tagText (tag : Tag) : List Char :=
  tag.name.toList ++ tag.attributes.flatMap attributeText

theorem startTag_eq (tag : Tag) : startTag tag = '<' :: (tagText tag ++ ['>']) := by
  simp [startTag, tagText, Text.chars_eq_toList]

theorem endTag_eq (tag : Tag) : endTag tag = '<' :: '/' :: (tag.name.toList ++ ['>']) := by
  simp [endTag, Text.chars_eq_toList]

end Html

open Html (attributeText escape tagText)

/-! ## Where a tag ends -/

namespace Reading

/-- Before the closing bracket a tag goes on. -/
theorem untilClosed?_plain
    {plain : List Char}
    (isPlain : ∀ character ∈ plain,
      character ≠ '>' ∧ character ≠ '"' ∧ character ≠ '\'')
    (text : List Char) :
    untilClosed? none (plain ++ text) =
      (untilClosed? none text).map fun parts => (plain ++ parts.1, parts.2) := by
  induction plain with
  | nil => simp
  | cons character plain inductionHypothesis =>
      obtain ⟨here, later⟩ := List.forall_mem_cons.1 isPlain
      obtain ⟨notClosed, notDouble, notSingle⟩ := here
      rw [List.cons_append, untilClosed?]
      simp [notClosed, notDouble, notSingle, inductionHypothesis later, Function.comp_def]

/-- Inside quotes nothing but the quote counts. -/
theorem untilClosed?_inside
    {value : List Char}
    (noQuote : '"' ∉ value)
    (text : List Char) :
    untilClosed? (some '"') (value ++ '"' :: text) =
      (untilClosed? none text).map fun parts => (value ++ '"' :: parts.1, parts.2) := by
  induction value with
  | nil => simp [untilClosed?]
  | cons character value inductionHypothesis =>
      obtain ⟨different, later⟩ := List.ne_and_not_mem_of_not_mem_cons noQuote
      rw [List.cons_append, untilClosed?]
      simp [different.symm, inductionHypothesis later, Function.comp_def]

theorem untilClosed?_quoted
    {value : List Char}
    (noQuote : '"' ∉ value)
    (text : List Char) :
    untilClosed? none ('"' :: (value ++ '"' :: text)) =
      (untilClosed? none text).map fun parts => ('"' :: (value ++ '"' :: parts.1), parts.2) := by
  rw [untilClosed?]
  simp [untilClosed?_inside noQuote, Function.comp_def]

/-- The attributes of a written tag end with the bracket behind them. -/
theorem untilClosed?_attributes
    {attributes : List (String × String)}
    (named : ∀ entry ∈ attributes, isName entry.1.toList = true)
    (text : List Char) :
    untilClosed? none (attributes.flatMap attributeText ++ '>' :: text) =
      some (attributes.flatMap attributeText, text) := by
  induction attributes with
  | nil => simp [untilClosed?]
  | cons entry attributes inductionHypothesis =>
      obtain ⟨name, value⟩ := entry
      obtain ⟨here, later⟩ := List.forall_mem_cons.1 named
      have isPlain : ∀ character ∈ ' ' :: (name.toList ++ ['=']),
          character ≠ '>' ∧ character ≠ '"' ∧ character ≠ '\'' := by
        simp only [List.forall_mem_cons, List.forall_mem_append]
        exact ⟨by decide, forall_plain_of_isName here, by simp⟩
      have noQuote : '"' ∉ escape value.toList := Html.notMem_escape (by simp) value.toList
      have parts (back : List Char) :
          attributeText (name, value) ++ back =
            (' ' :: (name.toList ++ ['='])) ++ '"' :: (escape value.toList ++ '"' :: back) := by
        simp [Html.attributeText_eq]
      rw [List.flatMap_cons, List.append_assoc, parts, untilClosed?_plain isPlain,
        untilClosed?_quoted noQuote, inductionHypothesis later]
      simp [Html.attributeText_eq]

/-- What begins neither a declaration nor an instruction is a tag. -/
theorem content_of_untilClosed?
    {first : Char}
    {text : List Char}
    {parts : List Char × List Char}
    (notDeclaration : first ≠ '!')
    (notInstruction : first ≠ '?')
    (isClosed : untilClosed? none (first :: text) = some parts) :
    content (first :: text) = .ok parts := by
  unfold content
  split
  case h_9 => simp only [isClosed]
  all_goals simp_all

/-- A written tag ends with the bracket behind it. -/
theorem content_tagText
    {tag : Tag}
    (writable : tag.Writable)
    (text : List Char) :
    content (tagText tag ++ '>' :: text) = .ok (tagText tag, text) := by
  have isClosed :
      untilClosed? none (tagText tag ++ '>' :: text) = some (tagText tag, text) := by
    rw [tagText, List.append_assoc, untilClosed?_plain (forall_plain_of_isName writable.named),
      untilClosed?_attributes writable.attributesNamed]
    rfl
  obtain ⟨first, rest, name_eq⟩ := List.exists_cons_of_ne_nil (ne_nil_of_isName writable.named)
  have isFirst : first ∈ tag.name.toList := name_eq ▸ List.mem_cons_self
  have notDeclaration : first ≠ '!' := ne_of_isName writable.named rfl first isFirst
  have notInstruction : first ≠ '?' := ne_of_isName writable.named rfl first isFirst
  rw [tagText, name_eq, List.append_assoc, List.cons_append] at isClosed ⊢
  exact content_of_untilClosed? notDeclaration notInstruction isClosed

theorem content_endTag
    {name : String}
    (named : isName name.toList = true)
    (text : List Char) :
    content ('/' :: (name.toList ++ '>' :: text)) = .ok ('/' :: name.toList, text) := by
  have isPlain : ∀ character ∈ '/' :: name.toList,
      character ≠ '>' ∧ character ≠ '"' ∧ character ≠ '\'' := by
    rw [List.forall_mem_cons]
    exact ⟨by decide, forall_plain_of_isName named⟩
  apply content_of_untilClosed? (by decide) (by decide)
  rw [← List.cons_append, untilClosed?_plain isPlain]
  simp [untilClosed?]

end Reading

/-! ## What stands in a tag -/

namespace Attribute

/-- What is read of one attribute and of those behind it. -/
theorem readAll_cons
    {length : Nat}
    {seen : List (List Char × Nat)}
    {text later name after written rest value : List Char}
    {first : Char}
    (isLeft : afterSpace text = first :: later)
    (isName : (readName first later).1 = name)
    (isAfter : afterEquals? (readName first later).2 = some after)
    (fresh : seen.lookup name = none)
    (isWritten : readValue? length after = .ok (written, rest))
    (isValue : Reference.resolveAll written = .ok value) :
    ∃ position, readAll length seen text =
      (readAll length ((name, position) :: seen) rest).map
        ((String.ofList name, String.ofList value) :: ·) := by
  refine ⟨length - Text.byteSize (first :: later), ?_⟩
  rw [readAll]
  split
  · next isEmpty => simp [isLeft] at isEmpty
  · next found =>
      rw [isLeft, List.cons.injEq] at found
      obtain ⟨rfl, rfl⟩ := found
      split
      · next absent => simp [isAfter] at absent
      · next found =>
          rw [isAfter, Option.some_inj] at found
          subst found
          simp only [isName, fresh]
          split
          · next failed => simp [isWritten] at failed
          · next found =>
              rw [isWritten, Except.ok.injEq, Prod.mk.injEq] at found
              obtain ⟨rfl, rfl⟩ := found
              simp only [isValue]
              rfl

/-- White space ends at the first character that is none. -/
theorem afterSpace_cons_of_notSpace
    {character : Char}
    (notSpace : isSpace character = false)
    (text : List Char) :
    afterSpace (character :: text) = character :: text := by
  rw [afterSpace, List.dropWhile_cons_of_neg]
  rw [notSpace]
  exact Bool.false_ne_true

theorem afterEquals?_cons (text : List Char) : afterEquals? ('=' :: text) = some text := by
  rw [afterEquals?, afterSpace_cons_of_notSpace (by decide)]
  rfl

/-- A name is read up to the equals sign behind it. -/
theorem readName_append
    {first : Char}
    {rest : List Char}
    (belongs : ∀ character ∈ rest, isSpace character = false ∧ character ≠ '=')
    (text : List Char) :
    readName first (rest ++ '=' :: text) = (first :: rest, '=' :: text) := by
  have allBelong : ∀ character ∈ rest, (!(isSpace character || character == '=')) = true := by
    intro character member
    obtain ⟨notSpace, notEquals⟩ := belongs character member
    simp [notSpace, notEquals]
  rw [readName, List.takeWhile_append_of_pos allBelong, List.dropWhile_append_of_pos allBelong]
  simp

/-- A quoted value is read up to the quote that ends it. -/
theorem readValue?_quoted
    {value : List Char}
    (noQuote : '"' ∉ value)
    (length : Nat)
    (text : List Char) :
    readValue? length ('"' :: (value ++ '"' :: text)) = .ok (value, text) := by
  have inside : ∀ character ∈ value, (character != '"') = true := by
    intro character member
    rw [bne_iff_ne]
    rintro rfl
    exact noQuote member
  rw [readValue?, afterSpace_cons_of_notSpace (by decide)]
  simp only [true_or, if_true]
  rw [List.takeWhile_append_of_pos inside, List.dropWhile_append_of_pos inside]
  simp

theorem isSpace_of_isName
    {name : List Char}
    (named : isName name = true)
    {character : Char}
    (member : character ∈ name) :
    isSpace character = false := by
  simp only [isSpace, Bool.or_eq_false_iff, beq_eq_false_iff_ne]
  refine ⟨⟨⟨?_, ?_⟩, ?_⟩, ?_⟩
  all_goals exact ne_of_isName named rfl character member

/-- A written attribute is read back, and then those behind it. -/
theorem readAll_attributeText
    {name : String}
    (named : isName name.toList = true)
    (value : String)
    {seen : List (List Char × Nat)}
    (fresh : seen.lookup name.toList = none)
    (length : Nat)
    (behind : List Char) :
    ∃ position, readAll length seen (attributeText (name, value) ++ behind) =
      (readAll length ((name.toList, position) :: seen) behind).map ((name, value) :: ·) := by
  obtain ⟨first, rest, name_eq⟩ := List.exists_cons_of_ne_nil (ne_nil_of_isName named)
  have notSpace : isSpace first = false :=
    isSpace_of_isName named (name_eq ▸ List.mem_cons_self)
  have belongs : ∀ character ∈ rest, isSpace character = false ∧ character ≠ '=' := by
    intro character member
    have inName : character ∈ name.toList := name_eq ▸ List.mem_cons_of_mem first member
    exact ⟨isSpace_of_isName named inName, ne_of_isName named rfl character inName⟩
  have noQuote : '"' ∉ escape value.toList := Html.notMem_escape (by simp) value.toList
  let quoted := '"' :: (escape value.toList ++ '"' :: behind)
  have text_eq :
      attributeText (name, value) ++ behind = ' ' :: first :: (rest ++ '=' :: quoted) := by
    simp [Html.attributeText_eq, name_eq, quoted]
  have isLeft : afterSpace (' ' :: first :: (rest ++ '=' :: quoted)) =
      first :: (rest ++ '=' :: quoted) :=
    afterSpace_cons_of_notSpace notSpace _
  have isRead : readName first (rest ++ '=' :: quoted) = (name.toList, '=' :: quoted) := by
    rw [name_eq]
    exact readName_append belongs quoted
  have isAfter : afterEquals? (readName first (rest ++ '=' :: quoted)).2 = some quoted := by
    rw [isRead, afterEquals?_cons]
  obtain ⟨position, step⟩ := readAll_cons isLeft (congrArg Prod.fst isRead) isAfter fresh
    (readValue?_quoted noQuote length behind) (Html.resolveAll_escape value.toList)
  rw [String.ofList_toList, String.ofList_toList] at step
  exact ⟨position, text_eq ▸ step⟩

/-- Written attributes are read back. -/
theorem readAll_attributes
    {attributes : List (String × String)}
    (named : ∀ entry ∈ attributes, isName entry.1.toList = true)
    (distinct : (attributes.map Prod.fst).Nodup)
    (length : Nat)
    {seen : List (List Char × Nat)}
    (fresh : ∀ entry ∈ attributes, seen.lookup entry.1.toList = none) :
    readAll length seen (attributes.flatMap attributeText) = .ok attributes := by
  induction attributes generalizing seen with
  | nil =>
      rw [List.flatMap_nil, readAll]
      rfl
  | cons entry attributes inductionHypothesis =>
      obtain ⟨name, value⟩ := entry
      obtain ⟨isNameHere, namedLater⟩ := List.forall_mem_cons.1 named
      obtain ⟨freshHere, freshLater⟩ := List.forall_mem_cons.1 fresh
      rw [List.map_cons, List.nodup_cons] at distinct
      obtain ⟨position, step⟩ := readAll_attributeText isNameHere value freshHere length
        (attributes.flatMap attributeText)
      -- the names behind this one differ from it, so they are still fresh once it was seen
      have freshBehind :
          ∀ entry ∈ attributes, ((name.toList, position) :: seen).lookup entry.1.toList = none := by
        intro entry member
        have different : (entry.1.toList == name.toList) = false := by
          rw [beq_eq_false_iff_ne, Ne, String.toList_inj]
          intro same
          have listed : entry.1 ∈ attributes.map Prod.fst := List.mem_map_of_mem member
          exact distinct.1 (same ▸ listed)
        rw [List.lookup_cons, different]
        exact freshLater entry member
      rw [List.flatMap_cons, step, inductionHypothesis namedLater distinct.2 freshBehind]
      rfl

end Attribute

namespace Reading

/-- A written tag is read back. -/
theorem readTag_tagText {tag : Tag} (writable : tag.Writable) : readTag (tagText tag) = .ok tag := by
  have inName : ∀ character ∈ tag.name.toList, (!Attribute.isSpace character) = true := by
    intro character member
    rw [Attribute.isSpace_of_isName writable.named member]
    rfl
  have parts : tagParts (tagText tag) = (tag.name.toList, tag.attributes.flatMap attributeText) := by
    rw [tagParts, tagText, List.takeWhile_append_of_pos inName,
      List.dropWhile_append_of_pos inName]
    cases tag.attributes with
    | nil => simp
    | cons entry attributes =>
        obtain ⟨name, value⟩ := entry
        simp [Html.attributeText_eq, Attribute.isSpace]
  rw [readTag, parts]
  simp only
  rw [Attribute.readAll_attributes writable.attributesNamed writable.distinct]
  · simp [bind, Except.bind, pure, Except.pure]
  · simp

/-- The content of a written tag does not end like that of an empty element. -/
theorem getLast?_tagText {tag : Tag} (writable : tag.Writable) :
    (tagText tag).getLast? ≠ some '/' := by
  rw [tagText]
  rcases List.eq_nil_or_concat tag.attributes with empty | ⟨earlier, ⟨name, value⟩, parts⟩
  · rw [empty, List.flatMap_nil, List.append_nil]
    intro isLast
    exact ne_of_isName writable.named rfl '/' (List.mem_of_getLast? isLast) rfl
  · have endsQuoted :
        tag.name.toList ++ tag.attributes.flatMap attributeText =
          (tag.name.toList ++ (earlier.flatMap attributeText ++
            ' ' :: (name.toList ++ '=' :: '"' :: escape value.toList))) ++ ['"'] := by
      rw [parts]
      simp [Html.attributeText_eq]
    rw [endsQuoted, List.getLast?_concat]
    decide

/-- What begins like a name and does not end like an empty element is a start tag. -/
theorem ofContent_opening
    {character : Char}
    {text : List Char}
    {tag : Tag}
    (notDeclaration : character ≠ '!')
    (notInstruction : character ≠ '?')
    (notClosing : character ≠ '/')
    (notEmpty : (character :: text).getLast? ≠ some '/')
    (isRead : readTag (character :: text) = .ok tag)
    (first last : Nat) :
    ofContent first last (character :: text) = .ok (some (.opening tag)) := by
  unfold ofContent
  split
  case h_4 =>
    split
    · next isEmpty => exact (notEmpty isEmpty).elim
    · simp [isRead, Except.mapError, pure, Except.pure, bind, Except.bind]
  all_goals simp_all

/-- A written start tag means that an element begins. -/
theorem ofContent_tagText
    {tag : Tag}
    (writable : tag.Writable)
    (first last : Nat) :
    ofContent first last (tagText tag) = .ok (some (.opening tag)) := by
  have notEmpty := getLast?_tagText writable
  have isRead := readTag_tagText writable
  obtain ⟨character, rest, name_eq⟩ := List.exists_cons_of_ne_nil (ne_nil_of_isName writable.named)
  have isFirst : character ∈ tag.name.toList := name_eq ▸ List.mem_cons_self
  have isOther {special : Char} (isSpecial : isNameCharacter special = false) :
      character ≠ special :=
    ne_of_isName writable.named isSpecial character isFirst
  rw [tagText, name_eq, List.cons_append] at notEmpty isRead ⊢
  exact ofContent_opening (isOther rfl) (isOther rfl) (isOther rfl) notEmpty isRead first last

/-- A written end tag means that an element ends. -/
theorem ofContent_endTag
    {name : String}
    (named : isName name.toList = true)
    (first last : Nat) :
    ofContent first last ('/' :: name.toList) = .ok (some (.closing name)) := by
  have notSpace : ∀ character ∈ name.toList.reverse, ¬Attribute.isSpace character = true := by
    intro character member
    rw [Attribute.isSpace_of_isName named (List.mem_reverse.1 member)]
    exact Bool.false_ne_true
  have notTrimmed : name.toList.reverse.dropWhile Attribute.isSpace = name.toList.reverse := by
    cases reversed : name.toList.reverse with
    | nil => rfl
    | cons character rest =>
        rw [reversed] at notSpace
        exact List.dropWhile_cons_of_neg (notSpace character List.mem_cons_self)
  have name_eq : closingName name.toList = name.toList := by
    rw [closingName, notTrimmed, List.reverse_reverse]
    simp
  rw [ofContent, name_eq, String.ofList_toList]

end Reading

end Markup
end Conformance
