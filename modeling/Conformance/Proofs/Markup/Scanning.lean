import Conformance.Proofs.Markup.Reading

/-!
# The items of a source

A document source is a sequence of items: tags, text with references, character data, comments,
processing instructions and document types.  The main statement is that a source that is read to
its end divides into items, and that the events that are read are what the items mean; instructions
and document types mean nothing.
-/

namespace Conformance
namespace Markup

open scoped Text

/-- A piece of a source. -/
inductive Item where
  /-- A start tag. -/
  | start (tag : Tag)
  /-- A tag that starts and ends an element. -/
  | empty (tag : Tag)
  /-- An end tag. -/
  | finish (name : String)
  /-- Text, with its references resolved. -/
  | text (content : String)
  /-- Character data, in which nothing is a reference. -/
  | data (content : String)
  /-- A comment. -/
  | comment (content : String)
  /-- A processing instruction or the declaration of the version. -/
  | instruction (content : List Char)
  /-- A document type. -/
  | doctype (content : List Char)

namespace Item

/-- The event that an item means, if any. -/
def event? : Item → Option Event
  | .start tag => some (.opening tag)
  | .empty tag => some (.empty tag)
  | .finish name => some (.closing name)
  | .text content => some (.text content)
  | .data content => some (.text content)
  | .comment content => some (.comment content)
  | .instruction _ => none
  | .doctype _ => none

/-- The characters that an item adds to the text. -/
def characters : Item → List Char
  | .text content => content.toList
  | .data content => content.toList
  | _ => []

/-- Whether the content of a tag is that of a tag with a name in front. -/
def IsNamed (inner : List Char) : Prop :=
  ∀ mark ∈ inner.head?, mark ≠ '!' ∧ mark ≠ '?' ∧ mark ≠ '/'

/-- What stands between the brackets around an item. -/
inductive Stands : Item → List Char → Prop where
  | start {inner : List Char} {tag : Tag}
      (isNamed : IsNamed inner)
      (goesOn : inner.getLast? ≠ some '/')
      (isTag : Reading.readTag inner = .ok tag) :
      Stands (.start tag) inner
  | empty {inner : List Char} {tag : Tag}
      (isNamed : IsNamed (inner ++ ['/']))
      (isTag : Reading.readTag inner = .ok tag) :
      Stands (.empty tag) (inner ++ ['/'])
  | finish (name : List Char) :
      Stands (.finish (String.ofList (Reading.closingName name))) ('/' :: name)
  | data (content : List Char) :
      Stands (.data (String.ofList content)) ("![CDATA[" ++ (content ++ "]]"))
  | comment (content : List Char) :
      Stands (.comment (String.ofList content)) ("!--" ++ (content ++ "--"))
  | instruction (content : List Char) :
      Stands (.instruction content) ('?' :: (content ++ "?"))
  | doctype {word content : List Char}
      (isWord : word.map Char.toUpper = "!DOCTYPE")
      (named : content.all Attribute.isSpace = false) :
      Stands (.doctype content) (word ++ content)

end Item

/-- The text consists of the items, one after the other. -/
inductive IsScan : List Char → List Item → Prop where
  | nil : IsScan [] []
  /-- Text goes up to the next bracket. -/
  | text {written content rest : List Char} {items : List Item}
      (nonempty : written ≠ [])
      (noMarkup : '<' ∉ written)
      (endsText : Reading.EndsText rest)
      (isContent : Reference.resolveAll written = .ok content)
      (later : IsScan rest items) :
      IsScan (written ++ rest) (.text (String.ofList content) :: items)
  /-- Everything else stands between brackets. -/
  | markup {inner rest : List Char} {item : Item} {items : List Item}
      (isContent : Reading.content (inner ++ '>' :: rest) = .ok (inner, rest))
      (stands : item.Stands inner)
      (later : IsScan rest items) :
      IsScan ('<' :: (inner ++ '>' :: rest)) (item :: items)

namespace Reading

/-! ## Brackets -/

/-- What a bracket closes goes on if it does behind a character that is kept. -/
theorem eq_of_map_cons
    {character : Char}
    {text inner rest : List Char}
    {found : Option (List Char × List Char)}
    (closes : ∀ {content}, found = some (content, rest) → text = content ++ '>' :: rest)
    (kept : (found.map fun (content, rest) => (character :: content, rest)) = some (inner, rest)) :
    character :: text = inner ++ '>' :: rest := by
  simp only [Option.map_eq_some_iff, Prod.exists, Prod.mk.injEq] at kept
  obtain ⟨content, after, isContent, rfl, rfl⟩ := kept
  rw [closes isContent, List.cons_append]

theorem eq_of_untilClosed?
    {quote : Option Char}
    {text inner rest : List Char}
    (found : untilClosed? quote text = some (inner, rest)) :
    text = inner ++ '>' :: rest := by
  induction text generalizing quote inner with
  | nil => cases found
  | cons character text inductionHypothesis =>
      unfold untilClosed? at found
      split at found
      · exact eq_of_map_cons inductionHypothesis found
      · split at found
        · next isClosing =>
            cases found
            rw [isClosing, List.nil_append]
        · exact eq_of_map_cons inductionHypothesis found

theorem eq_of_untilBalanced?
    {depth : Nat}
    {text inner rest : List Char}
    (found : untilBalanced? depth text = some (inner, rest)) :
    text = inner ++ '>' :: rest := by
  induction text generalizing depth inner with
  | nil => cases found
  | cons character text inductionHypothesis =>
      unfold untilBalanced? at found
      split at found
      · exact eq_of_map_cons inductionHypothesis found
      · split at found
        · next isClosing =>
            split at found
            · cases found
              rw [isClosing, List.nil_append]
            · exact eq_of_map_cons inductionHypothesis found
        · exact eq_of_map_cons inductionHypothesis found

theorem eq_of_untilEnding?
    {ending text inner rest : List Char}
    (found : untilEnding? ending text = some (inner, rest)) :
    ∃ content, inner = content ++ ending ∧ text = inner ++ '>' :: rest := by
  simp only [untilEnding?, Option.map_eq_some_iff, Prod.exists, Prod.mk.injEq] at found
  obtain ⟨content, after, split, rfl, rfl⟩ := found
  refine ⟨content, rfl, ?_⟩
  rw [Text.eq_of_splitFirst?_eq_some split]
  simp [Text.chars_eq_toList]

/-- What follows a start is closed if all of it is. -/
theorem eq_of_orElse
    {fault : Fault}
    {start text inner rest : List Char}
    {found : Option (List Char × List Char)}
    (isContent :
      (match found.map fun (content, rest) => (start ++ content, rest) with
        | some parts => Except.ok parts
        | none => .error fault) = .ok (inner, rest))
    (closes : ∀ {content}, found = some (content, rest) → text = content ++ '>' :: rest) :
    ∃ content, found = some (content, rest) ∧ inner = start ++ content ∧
      start ++ text = inner ++ '>' :: rest := by
  cases found with
  | none => cases isContent
  | some parts =>
      cases isContent
      exact ⟨parts.1, rfl, rfl, by rw [closes rfl, List.append_assoc]⟩

/-! ## Meanings -/

variable {event : Option Event} {first last : Nat}

/-- The item that stands between brackets means the event. -/
def StandsFor (inner : List Char) (event : Option Event) : Prop :=
  ∃ item : Item, item.Stands inner ∧ item.event? = event

/-- Data cannot end inside the word in front of it. -/
theorem exists_eq_append_of_data
    {later data : List Char}
    (parts : later ++ [']', ']'] = ['C', 'D', 'A', 'T', 'A', '['] ++ data) :
    ∃ content, data = content ++ [']', ']'] := by
  obtain ⟨overlap, word_eq, ending_eq⟩ | ⟨content, -, data_eq⟩ := List.append_eq_append_iff.1 parts
  · cases overlap with
    | nil => exact ⟨[], ending_eq.symm⟩
    | cons character overlap =>
        obtain ⟨rfl, -⟩ := List.cons.inj ending_eq
        have member : ']' ∈ ['C', 'D', 'A', 'T', 'A', '['] := by
          rw [word_eq]
          simp
        exact absurd member (by decide)
  · exact ⟨content, data_eq⟩

theorem standsFor_data
    {later : List Char}
    (isMeant : ofContent first last ('!' :: '[' :: (later ++ "]]")) = .ok event) :
    StandsFor ('!' :: '[' :: (later ++ "]]")) event := by
  simp only [ofContent, ofDeclaration] at isMeant
  split at isMeant
  · next data begins =>
      cases isMeant
      have inner_eq := Text.after?_eq_some_iff.1 begins
      have parts : later ++ [']', ']'] = ['C', 'D', 'A', 'T', 'A', '['] ++ data := by
        simpa [Text.chars_eq_toList] using inner_eq
      obtain ⟨content, rfl⟩ := exists_eq_append_of_data parts
      refine ⟨.data (String.ofList content), ?_, by simp [Item.event?]⟩
      have ending_eq : Text.chars "]]" = [']', ']'] := by simp [Text.chars_eq_toList]
      rw [inner_eq, ← ending_eq]
      exact .data content
  · cases isMeant

theorem standsFor_comment
    {next : Char}
    {later : List Char}
    (isMeant : ofContent first last ('!' :: '-' :: next :: (later ++ "--")) = .ok event) :
    StandsFor ('!' :: '-' :: next :: (later ++ "--")) event := by
  simp only [ofContent, ofDeclaration] at isMeant
  split at isMeant
  · next comment begins =>
      cases isMeant
      have inner_eq := Text.after?_eq_some_iff.1 begins
      obtain ⟨rfl, rfl⟩ : next = '-' ∧ later ++ Text.chars "--" = comment := by
        simpa [Text.chars_eq_toList] using inner_eq
      refine ⟨.comment (String.ofList later), ?_, by simp [Item.event?, Text.chars_eq_toList]⟩
      rw [inner_eq]
      exact .comment later
  · cases isMeant

theorem standsFor_doctype
    {letter : Char}
    {later : List Char}
    (isLetter : letter = 'D' ∨ letter = 'd')
    (isMeant : ofContent first last ('!' :: letter :: later) = .ok event) :
    StandsFor ('!' :: letter :: later) event := by
  have declared : ofContent first last ('!' :: letter :: later) =
      (afterDoctype? ('!' :: letter :: later)).elim (.error ⟨first, .doctypeNotClosed⟩) fun name =>
        if name.all Attribute.isSpace then .error ⟨last, .doctypeWithoutName⟩ else .ok none := by
    rcases isLetter with rfl | rfl
    all_goals
      simp only [ofContent, ofDeclaration]
      cases afterDoctype? _ <;> rfl
  rw [declared, afterDoctype?] at isMeant
  by_cases isWord :
      (('!' :: letter :: later).take 8).map Char.toUpper = Text.chars "!DOCTYPE"
  · rw [if_pos isWord, Option.elim_some] at isMeant
    split at isMeant
    · cases isMeant
    · next named =>
        cases isMeant
        have stands := Item.Stands.doctype isWord ((Bool.not_eq_true _).mp named)
        rw [List.take_append_drop] at stands
        exact ⟨_, stands, rfl⟩
  · rw [if_neg isWord] at isMeant
    cases isMeant

theorem standsFor_tag
    {inner : List Char}
    (notDeclaration : ∀ later, inner ≠ '!' :: later)
    (notInstruction : ∀ later, inner ≠ '?' :: later)
    (isMeant : ofContent first last inner = .ok event) :
    StandsFor inner event := by
  simp only [ofContent] at isMeant
  split at isMeant
  · next later => exact absurd rfl (notDeclaration later)
  · next later => exact absurd rfl (notInstruction later)
  · next name =>
      cases isMeant
      exact ⟨_, .finish name, rfl⟩
  · next notClosing =>
      have isNamed : Item.IsNamed inner := by
        intro mark isFirst
        obtain ⟨later, rfl⟩ := List.head?_eq_some_iff.1 isFirst
        exact ⟨fun isMark => notDeclaration later (isMark ▸ rfl),
          fun isMark => notInstruction later (isMark ▸ rfl),
          fun isMark => notClosing later (isMark ▸ rfl)⟩
      split at isMeant
      · next isEmpty =>
          have inner_eq := List.dropLast_append_getLast? '/' isEmpty
          cases isTag : readTag inner.dropLast with
          | error fault => simp [isTag, Except.mapError] at isMeant
          | ok tag =>
              rw [isTag] at isMeant
              cases isMeant
              rw [← inner_eq] at isNamed ⊢
              exact ⟨.empty tag, .empty isNamed isTag, rfl⟩
      · next goesOn =>
          cases isTag : readTag inner with
          | error fault => simp [isTag, Except.mapError] at isMeant
          | ok tag =>
              rw [isTag] at isMeant
              cases isMeant
              exact ⟨.start tag, .start isNamed goesOn isTag, rfl⟩

/-- What stands between brackets is that of an item, which means what is read. -/
theorem standsFor_of_content
    {text inner rest : List Char}
    (isContent : content text = .ok (inner, rest))
    (isMeant : ofContent first last inner = .ok event) :
    text = inner ++ '>' :: rest ∧ StandsFor inner event := by
  simp only [content] at isContent
  split at isContent
  · next later =>
      obtain ⟨_, found, rfl, closed⟩ := eq_of_orElse isContent fun closes =>
        (eq_of_untilEnding? closes).choose_spec.2
      obtain ⟨data, rfl, -⟩ := eq_of_untilEnding? found
      exact ⟨closed, standsFor_data isMeant⟩
  · next next later =>
      obtain ⟨_, found, rfl, closed⟩ := eq_of_orElse isContent fun closes =>
        (eq_of_untilEnding? closes).choose_spec.2
      obtain ⟨comment, rfl, -⟩ := eq_of_untilEnding? found
      exact ⟨closed, standsFor_comment isMeant⟩
  · cases isContent
  · obtain ⟨_, -, rfl, closed⟩ := eq_of_orElse isContent eq_of_untilBalanced?
    exact ⟨closed, standsFor_doctype (.inl rfl) isMeant⟩
  · obtain ⟨_, -, rfl, closed⟩ := eq_of_orElse isContent eq_of_untilBalanced?
    exact ⟨closed, standsFor_doctype (.inr rfl) isMeant⟩
  · cases isContent
  · cases isContent
  · obtain ⟨_, found, rfl, closed⟩ := eq_of_orElse isContent fun closes =>
      (eq_of_untilEnding? closes).choose_spec.2
    obtain ⟨instruction, rfl, -⟩ := eq_of_untilEnding? found
    cases isMeant
    exact ⟨closed, .instruction instruction, .instruction instruction, rfl⟩
  · next notDeclaration _ notInstruction =>
      split at isContent
      · next found =>
          cases isContent
          have closed := eq_of_untilClosed? found
          refine ⟨closed, standsFor_tag ?_ ?_ isMeant⟩
          · rintro later rfl
            exact notDeclaration _ closed
          · rintro later rfl
            exact notInstruction _ closed
      · cases isContent

/-! ## Whole sources -/

theorem endsText_dropWhile (text : List Char) : EndsText (text.dropWhile (· != '<')) := by
  cases remaining : text.dropWhile (· != '<') with
  | nil => exact .inl rfl
  | cons character rest =>
      have stops := List.head?_dropWhile_not (· != '<') text
      rw [remaining, List.head?_cons] at stops
      obtain rfl : character = '<' := by simpa using stops
      exact .inr ⟨rest, rfl⟩

theorem ending_behind (event : Option Event) (first last : Nat) (later : Reading) :
    (behind event first last later).ending = later.ending := by
  cases event <;> rfl

theorem events_behind (event : Option Event) (first last : Nat) (later : Reading) :
    (behind event first last later).events.map Located.event =
      event.toList ++ later.events.map Located.event := by
  cases event <;> rfl

/-- A text that is read to its end consists of items, and the events that are read are what the
items mean. -/
theorem exists_isScan
    {position ends : Nat}
    {text : List Char}
    (isEnding : (ofTextFrom position text).ending = .ok ends) :
    ∃ items, IsScan text items ∧
      (ofTextFrom position text).events.map Located.event = items.filterMap Item.event? := by
  fun_induction ofTextFrom position text with
  | case1 position => exact ⟨[], .nil, rfl⟩
  | case2 position text fault isContent => cases isEnding
  | case3 position text inner rest isContent last refusal isMeant => cases isEnding
  | case4 position text inner rest isContent last event isMeant inductionHypothesis =>
      rw [ending_behind] at isEnding
      obtain ⟨items, isScan, events_eq⟩ := inductionHypothesis isEnding
      obtain ⟨rfl, item, stands, rfl⟩ := standsFor_of_content isContent isMeant
      refine ⟨item :: items, .markup isContent stands isScan, ?_⟩
      rw [events_behind, events_eq]
      cases item <;> rfl
  | case5 position character text notMarkup written last fault isRefused => cases isEnding
  | case6 position character text notMarkup written last content isContent inductionHypothesis =>
      rw [ending_behind] at isEnding
      obtain ⟨items, isScan, events_eq⟩ := inductionHypothesis isEnding
      refine ⟨.text (String.ofList content) :: items, ?_, ?_⟩
      · have parts : character :: text = written ++ text.dropWhile (· != '<') := by
          simp [written]
        have noMarkup : '<' ∉ written := by
          intro member
          obtain isFirst | later := List.mem_cons.1 member
          · exact notMarkup isFirst.symm
          · simpa using List.all_eq_true.1 List.all_takeWhile _ later
        rw [parts]
        exact .text (List.cons_ne_nil _ _) noMarkup (endsText_dropWhile text) isContent isScan
      · rw [events_behind, events_eq]
        rfl

/-- The source without a byte order mark in front. -/
def withoutMark : List Char → List Char
  | '\ufeff' :: text => text
  | text => text

theorem ofSource_eq (source : List Char) : ofSource source = ofTextFrom 0 (withoutMark source) := by
  unfold ofSource
  split
  · rfl
  · next notMark => rw [withoutMark.eq_2 source notMark]

end Reading

end Markup
end Conformance
