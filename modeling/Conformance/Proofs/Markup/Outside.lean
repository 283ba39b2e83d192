import Conformance.Proofs.Markup.Building

/-!
# Outside the root

A source is accepted exactly if its items divide at the start and the end of an element, and no tag
stands in front of the element or behind it.  A tag outside is always refused.  Text outside is not
looked at: whatever it says, the source is accepted, and nothing of it is in the document.
-/

namespace Conformance
namespace Markup

open scoped Text

/-! ## Items are read as they are meant -/

namespace Reading

variable {inner : List Char} {tag : Tag} (first last : Nat)

theorem ofContent_start
    (isNamed : Item.IsNamed inner)
    (goesOn : inner.getLast? ≠ some '/')
    (isTag : readTag inner = .ok tag) :
    ofContent first last inner = .ok (some (.opening tag)) := by
  cases inner with
  | nil =>
      simp only [ofContent, List.getLast?_nil, isTag]
      rfl
  | cons character text =>
      obtain ⟨notDeclaration, notInstruction, notClosing⟩ := isNamed character rfl
      exact ofContent_opening notDeclaration notInstruction notClosing goesOn isTag first last

theorem ofContent_empty
    (isNamed : Item.IsNamed (inner ++ ['/']))
    (isTag : readTag inner = .ok tag) :
    ofContent first last (inner ++ ['/']) = .ok (some (.empty tag)) := by
  have isEnd : (inner ++ ['/']).getLast? = some '/' := List.getLast?_concat
  have isInner : (inner ++ ['/']).dropLast = inner := List.dropLast_concat
  generalize inner ++ ['/'] = whole at isNamed isEnd isInner
  unfold ofContent
  split
  · exact absurd rfl (isNamed '!' rfl).1
  · exact absurd rfl (isNamed '?' rfl).2.1
  · exact absurd rfl (isNamed '/' rfl).2.2
  · rw [isEnd, isInner, isTag]
    rfl

theorem ofContent_data (content : List Char) :
    ofContent first last ("![CDATA[" ++ (content ++ "]]")) =
      .ok (some (.text (String.ofList content))) := by
  simp [ofContent, ofDeclaration, Text.chars_eq_toList, Text.after?]

theorem ofContent_commentText (content : List Char) :
    ofContent first last ("!--" ++ (content ++ "--")) =
      .ok (some (.comment (String.ofList content))) := by
  simpa [Text.chars_eq_toList] using ofContent_comment content first last

theorem eq_bang_of_toUpper {character : Char} (isUpper : character.toUpper = '!') :
    character = '!' := by
  unfold Char.toUpper at isUpper
  split at isUpper
  · next isLower =>
      have value := congrArg (fun other => other.val.toNat) isUpper
      simp [UInt32.le_iff_toNat_le] at value isLower
      omega
  · exact isUpper

theorem ofContent_doctypeText
    {word content : List Char}
    (isWord : word.map Char.toUpper = "!DOCTYPE")
    (named : content.all Attribute.isSpace = false) :
    ofContent first last (word ++ content) = .ok none := by
  have isLength : word.length = 8 := by
    rw [← List.length_map (f := Char.toUpper), isWord]
    simp [Text.chars_eq_toList]
  have isDoctype : afterDoctype? (word ++ content) = some content := by
    rw [afterDoctype?, ← isLength, List.take_left, List.drop_left, if_pos isWord]
  -- the word begins like no other declaration
  obtain ⟨mark, letter, later, rfl, isMark, isLetter⟩ :
      ∃ mark letter later, word = mark :: letter :: later ∧
        mark.toUpper = '!' ∧ letter.toUpper = 'D' := by
    rw [Text.chars_eq_toList] at isWord
    obtain ⟨mark, behind, rfl, isMark, areBehind⟩ := List.map_eq_cons_iff.1 isWord
    obtain ⟨letter, later, rfl, isLetter, -⟩ := List.map_eq_cons_iff.1 areBehind
    exact ⟨mark, letter, later, rfl, isMark, isLetter⟩
  obtain rfl := eq_bang_of_toUpper isMark
  have notData : letter ≠ '[' := by
    rintro rfl
    exact absurd isLetter (by decide)
  have notComment : letter ≠ '-' := by
    rintro rfl
    exact absurd isLetter (by decide)
  rw [List.cons_append, List.cons_append] at isDoctype ⊢
  simp only [ofContent, ofDeclaration]
  split
  · next same => exact absurd (List.cons.inj (List.cons.inj same).2).1 notData
  · next same => exact absurd (List.cons.inj (List.cons.inj same).2).1 notComment
  · rw [isDoctype]
    simp [named]

/-- An item is read as what it means. -/
theorem ofContent_of_stands
    {item : Item}
    (stands : item.Stands inner) :
    ofContent first last inner = .ok item.event? := by
  cases stands with
  | start isNamed goesOn isTag => exact ofContent_start first last isNamed goesOn isTag
  | empty isNamed isTag => exact ofContent_empty first last isNamed isTag
  | finish name => rfl
  | data content => exact ofContent_data first last content
  | comment content => exact ofContent_commentText first last content
  | instruction content => rfl
  | doctype isWord named => exact ofContent_doctypeText first last isWord named

/-- A text that consists of items is read to its end, and as what the items mean. -/
theorem begins_of_isScan
    {text : List Char}
    {items : List Item}
    (isScan : IsScan text items)
    (position : Nat) :
    ∃ ends, (ofTextFrom position text).Begins (items.filterMap Item.event?)
      { events := [], ending := .ok ends } := by
  induction isScan generalizing position with
  | nil =>
      rw [ofTextFrom]
      exact ⟨position, .refl _⟩
  | text nonempty noMarkup endsText isContent _ inductionHypothesis =>
      obtain ⟨last, piece⟩ := begins_text nonempty noMarkup isContent endsText position
      obtain ⟨ends, later⟩ := inductionHypothesis last
      exact ⟨ends, piece.trans later⟩
  | @markup inner rest item items isContent stands _ inductionHypothesis =>
      obtain ⟨last, reading_eq⟩ := ofTextFrom_markup isContent
        (fun first last => ofContent_of_stands first last stands) position
      obtain ⟨ends, later⟩ := inductionHypothesis last
      rw [reading_eq, List.filterMap_cons]
      cases item.event? with
      | none => exact ⟨ends, later⟩
      | some event => exact ⟨ends, (Begins.behind event position last _).trans later⟩

/-- A root is built if the events build it and the source is read to its end. -/
theorem build_eq_ok_iff {reading : Reading} {root : Element} :
    reading.build = .ok root ↔
      (reading.events.map Located.event).foldlM Building.advance {} =
          some { root := some root } ∧
        ∃ position, reading.ending = .ok position := by
  rw [← Building.foldlM_step_eq_ok_iff, build]
  cases reading.events.foldlM Building.step {} with
  | error refusal => simp [bind, Except.bind]
  | ok building =>
      cases reading.ending with
      | error refusal => simp [bind, Except.bind]
      | ok position =>
          rcases building with ⟨_ | ⟨innermost, outer⟩, _ | built⟩ <;>
            simp [bind, Except.bind, Building.finish]

/-- A source that consists of items is accepted if the events of the items build a root. -/
theorem build_ofSource_eq_ok_iff
    {source : List Char}
    {items : List Item}
    (isScan : IsScan (withoutMark source) items)
    {root : Element} :
    (ofSource source).build = .ok root ↔
      (items.filterMap Item.event?).foldlM Building.advance {} = some { root := some root } := by
  obtain ⟨ends, located, areEvents, reading_eq⟩ := begins_of_isScan isScan 0
  rw [ofSource_eq, build_eq_ok_iff, reading_eq, List.append_nil, areEvents]
  exact and_iff_left ⟨ends, rfl⟩

end Reading

/-! ## Unfolding and merging build the same -/

namespace Building

/-- An empty tag is a start tag and an end tag. -/
theorem advance_empty (building : Building) (tag : Tag) :
    building.advance (.empty tag) =
      (building.advance (.opening tag)).bind fun opened => opened.advance (.closing tag.name) := by
  have closes : advance ⟨{ tag := tag } :: building.opened, building.root⟩ (.closing tag.name) =
      (building.addElement 0 { tag := tag }).toOption := by
    simp only [advance, step, close, if_true]
    rfl
  exact closes.symm

/-- Texts that follow one another are one text. -/
theorem advance_text_text (building : Building) (first second : String) :
    ((building.advance (.text first)).bind fun next => next.advance (.text second)) =
      building.advance (.text (first ++ second)) := by
  rcases building with ⟨_ | ⟨⟨tag, latest⟩, outer⟩, root⟩
  · rfl
  · rcases latest with _ | ⟨_ | earlier | _, rest⟩ <;>
      simp [advance, step, modifyInnermost, OpenElement.addText, Except.toOption,
        String.append_assoc]

theorem foldlM_advance_unfolded (building : Building) (events : List Event) :
    (events.flatMap Event.unfolded).foldlM advance building = events.foldlM advance building := by
  induction events generalizing building with
  | nil => rfl
  | cons event events inductionHypothesis =>
      rw [List.flatMap_cons, List.foldlM_append, List.foldlM_cons]
      have unfolds : event.unfolded.foldlM advance building = building.advance event := by
        cases event with
        | empty tag =>
            rw [advance_empty]
            simp [Event.unfolded, List.foldlM_cons]
        | _ => simp [Event.unfolded, List.foldlM_cons]
      rw [unfolds]
      exact congrArg _ (funext inductionHypothesis)

theorem foldlM_advance_mergeTexts (building : Building) (events : List Event) :
    (mergeTexts events).foldlM advance building = events.foldlM advance building := by
  have merges (building : Building) (content : String) (later : List Event) :
      (mergeText content later).foldlM advance building =
        (building.advance (.text content)).bind fun next => later.foldlM advance next := by
    cases later with
    | nil => simp [mergeText, List.foldlM_cons]
    | cons event later =>
        cases event with
        | text given =>
            rw [mergeText, List.foldlM_cons, ← advance_text_text, Option.bind_eq_bind,
              Option.bind_assoc]
            rfl
        | _ => rfl
  induction events generalizing building with
  | nil => rfl
  | cons event events inductionHypothesis =>
      cases event with
      | text content =>
          rw [mergeTexts, merges, List.foldlM_cons]
          exact congrArg _ (funext inductionHypothesis)
      | _ =>
          simp only [mergeTexts, List.foldlM_cons]
          exact congrArg _ (funext inductionHypothesis)

end Building

theorem Apart.of_infix
    {inner events : List Event}
    (apart : Apart events)
    (inEvents : inner <:+: events) :
    Apart inner :=
  fun first second occurs => apart first second (occurs.trans inEvents)

/-- Siblings whose texts stand apart when they are written out as events are separate. -/
theorem separate_of_apart :
    (nodes : List Node) → Apart (eventsOf nodes) → Separate nodes
  | [], _ => .nil
  | .element tag children :: rest, apart =>
      have inside := (eventsOf_infix_eventsOfNode tag children).trans
        (List.prefix_append (eventsOfNode (.element tag children)) (eventsOf rest)).isInfix
      .element (separate_of_apart children (apart.of_infix inside))
        (separate_of_apart rest (apart.of_infix (List.suffix_append _ _).isInfix))
  | .text content :: rest, apart => by
      refine .text ?_ (separate_of_apart rest (apart.of_infix (List.suffix_append _ _).isInfix))
      rcases rest with _ | ⟨_ | later | _, rest⟩
      · rfl
      · rfl
      · exact absurd ⟨[], eventsOf rest, rfl⟩ (apart content later)
      · rfl
  | .comment content :: rest, apart =>
      .comment (separate_of_apart rest (apart.of_infix (List.suffix_append _ _).isInfix))

namespace Building

variable {events : List Event} {root : Element}

/-- Events that are those of an element once they are unfolded and merged build the element. -/
theorem foldlM_advance_of_mergeTexts
    (describes : mergeTexts (events.flatMap Event.unfolded) = eventsOfNode root.toNode) :
    events.foldlM advance {} = some { root := some root } := by
  have apart : Apart (eventsOfNode root.toNode) := describes ▸ apart_mergeTexts _
  have inside := eventsOf_infix_eventsOfNode root.tag root.children
  rw [← foldlM_advance_unfolded, ← foldlM_advance_mergeTexts, describes]
  exact foldlM_advance_root (separate_of_apart root.children (apart.of_infix inside))

/-- Outside the root nothing but a tag is looked at. -/
theorem foldlM_advance_of_withoutTags
    (withoutTags : WithoutTags events)
    (complete : Option Element) :
    events.foldlM advance ⟨[], complete⟩ = some ⟨[], complete⟩ := by
  induction events with
  | nil => rfl
  | cons event events inductionHypothesis =>
      obtain ⟨noTag, others⟩ := List.forall_mem_cons.1 withoutTags
      have ignored : advance ⟨[], complete⟩ event = some ⟨[], complete⟩ := by
        cases event with
        | text content => rfl
        | comment content => rfl
        | _ => cases noTag
      rw [List.foldlM_cons, ignored]
      exact inductionHypothesis others

/-- An element that is open behind the root stays open. -/
theorem opened_ne_nil_of_foldlM_advance
    {innermost : OpenElement}
    {outer : List OpenElement}
    {later : Building}
    (advances : events.foldlM advance ⟨innermost :: outer, some root⟩ = some later) :
    later.opened ≠ [] := by
  induction events generalizing innermost outer with
  | nil =>
      obtain rfl := Option.some.inj advances
      exact List.cons_ne_nil _ _
  | cons event events inductionHypothesis =>
      rw [List.foldlM_cons] at advances
      cases event with
      | closing name =>
          by_cases isName : innermost.tag.name = name
          · cases outer with
            | nil => simp [advance, step, close, isName, addElement, Except.toOption] at advances
            | cons parent outer =>
                simp only [advance, step, close, if_pos isName] at advances
                exact inductionHypothesis advances
          · simp [advance, step, close, isName, Except.toOption] at advances
      | _ => exact inductionHypothesis advances

/-- Behind the root every tag is refused, or leaves an element open. -/
theorem withoutTags_of_foldlM_advance
    {complete : Option Element}
    (advances : events.foldlM advance ⟨[], some root⟩ = some ⟨[], complete⟩) :
    WithoutTags events := by
  induction events with
  | nil => exact withoutTags_nil
  | cons event events inductionHypothesis =>
      rw [List.foldlM_cons] at advances
      cases event with
      | opening tag => exact absurd rfl (opened_ne_nil_of_foldlM_advance advances)
      | empty tag => cases advances
      | closing name => cases advances
      | _ => exact List.forall_mem_cons.2 ⟨rfl, inductionHypothesis advances⟩

end Building

/-! ## Sources divided around an element -/

/-- The items of a source in front of an element, those that describe the element, and those behind
it.  No tag stands in front. -/
structure Divides
    (source : String)
    (root : Element)
    (before inside behind : List Item) :
    Prop where
  isScan : IsScan (Reading.withoutMark source.toList) (before ++ inside ++ behind)
  leading : WithoutTags (before.filterMap Item.event?)
  describes :
    mergeTexts ((inside.filterMap Item.event?).flatMap Event.unfolded) = eventsOfNode root.toNode

variable {source : String} {root : Element} {before inside behind : List Item}

/-- The text of the element is what the items that describe it add. -/
theorem Divides.textContent_eq (divides : Divides source root before inside behind) :
    root.textContent.toList = inside.flatMap Item.characters := by
  rw [← flatMap_characters_filterMap_event?, ← flatMap_characters_mergeTexts, divides.describes,
    flatMap_characters_eventsOfNode]
  rfl

/-- Only the tags behind the element decide whether a divided source is accepted. -/
theorem Divides.build_eq_ok_iff
    (divides : Divides source root before inside behind)
    (built : Element) :
    (Reading.ofSource source.toList).build = .ok built ↔
      built = root ∧ WithoutTags (behind.filterMap Item.event?) := by
  rw [Reading.build_ofSource_eq_ok_iff divides.isScan, List.filterMap_append,
    List.filterMap_append, List.foldlM_append, List.foldlM_append,
    Building.foldlM_advance_of_withoutTags divides.leading, Option.bind_eq_bind,
    Option.bind_some, Building.foldlM_advance_of_mergeTexts divides.describes, Option.bind_some]
  constructor
  · intro advances
    have trailing := Building.withoutTags_of_foldlM_advance advances
    rw [Building.foldlM_advance_of_withoutTags trailing] at advances
    cases advances
    exact ⟨rfl, trailing⟩
  · rintro ⟨rfl, trailing⟩
    exact Building.foldlM_advance_of_withoutTags trailing _

/-- A source that is accepted divides around its root. -/
theorem exists_divides_of_build
    (isBuilt : (Reading.ofSource source.toList).build = .ok root) :
    ∃ before inside behind, Divides source root before inside behind := by
  obtain ⟨before, inside, behind, events_eq, leading, -, holds, ends, isEnding⟩ :=
    Reading.eventsOfNode_of_build isBuilt
  rw [Reading.ofSource_eq] at isEnding events_eq
  obtain ⟨items, isScan, meant⟩ := Reading.exists_isScan isEnding
  have divided := meant.symm.trans events_eq
  obtain ⟨upTo, after, rfl, isUpTo, rfl⟩ := List.filterMap_eq_append_iff.1 divided
  obtain ⟨front, middle, rfl, rfl, rfl⟩ := List.filterMap_eq_append_iff.1 isUpTo
  exact ⟨front, middle, after, isScan, leading, holds⟩

/-- Nothing but blanks stands around a text exactly if the text holds all that is not blank. -/
theorem forall_mem_iff_filter_eq
    (blank : Char → Bool)
    (front middle back : List Char) :
    (∀ character ∈ front ++ back, blank character = true) ↔
      (front ++ middle ++ back).filter (fun character => !blank character) =
        middle.filter fun character => !blank character := by
  have nothing_iff (text : List Char) :
      (∀ character ∈ text, blank character = true) ↔
        (text.filter fun character => !blank character).length = 0 := by
    simp
  rw [List.forall_mem_append, nothing_iff, nothing_iff, List.filter_append, List.filter_append]
  constructor
  · rintro ⟨noFront, noBack⟩
    rw [List.length_eq_zero_iff.1 noFront, List.length_eq_zero_iff.1 noBack, List.nil_append,
      List.append_nil]
  · intro same
    have lengths := congrArg List.length same
    simp only [List.length_append] at lengths
    omega

namespace Document

theorem ofXhtml_eq_ok_iff {document : Document} :
    ofXhtml source = .ok document ↔
      (Reading.ofSource source.toList).build = .ok document.root := by
  rw [ofXhtml]
  cases (Reading.ofSource source.toList).build with
  | error refusal => simp
  | ok built =>
      obtain ⟨root⟩ := document
      simp

/-- A refused source has a fault of its markup. -/
theorem exists_markup_of_ofXhtml
    (refused : ∀ document, ofXhtml source ≠ .ok document) :
    ∃ position message, ofXhtml source = .error (.markup position message) := by
  cases isBuilt : (Reading.ofSource source.toList).build with
  | error refusal => exact ⟨refusal.position, refusal.fault.message, by rw [ofXhtml, isBuilt]⟩
  | ok root => exact absurd (ofXhtml_eq_ok_iff.2 isBuilt) (refused ⟨root⟩)

/-- A source that is accepted divides around its root, and of a source that divides around an
element only the tags behind the element matter: it is accepted, with the element as the root,
exactly if there are none, and otherwise its markup is at fault.  The text outside does not matter.
So the document has all text of the source but blanks, whatever counts as a blank, exactly if there
are only blanks outside. -/
theorem ofXhtml_divides (source : String) :
    (∀ document, ofXhtml source = .ok document →
      ∃ before inside behind, Divides source document.root before inside behind) ∧
    ∀ root before inside behind, Divides source root before inside behind →
      (∀ document, ofXhtml source = .ok document ↔
        document = ⟨root⟩ ∧ WithoutTags (behind.filterMap Item.event?)) ∧
      (¬ WithoutTags (behind.filterMap Item.event?) →
        ∃ position message, ofXhtml source = .error (.markup position message)) ∧
      ∀ blank : Char → Bool,
        (∀ character ∈ (before ++ behind).flatMap Item.characters, blank character = true) ↔
          ((before ++ inside ++ behind).flatMap Item.characters).filter
              (fun character => !blank character) =
            root.textContent.toList.filter fun character => !blank character := by
  refine ⟨fun document accepted => exists_divides_of_build (ofXhtml_eq_ok_iff.1 accepted),
    fun root before inside behind divides => ?_⟩
  have accepted_iff (document : Document) :
      ofXhtml source = .ok document ↔
        document = ⟨root⟩ ∧ WithoutTags (behind.filterMap Item.event?) := by
    obtain ⟨built⟩ := document
    rw [ofXhtml_eq_ok_iff, divides.build_eq_ok_iff, Document.mk.injEq]
  refine ⟨accepted_iff, fun withTags => ?_, fun blank => ?_⟩
  · exact exists_markup_of_ofXhtml fun document accepted =>
      withTags ((accepted_iff document).1 accepted).2
  · rw [divides.textContent_eq, List.flatMap_append, List.flatMap_append, List.flatMap_append]
    exact forall_mem_iff_filter_eq blank _ _ _

/-- A line break behind the root is no prose. -/
theorem ofXhtml_divides_break :
    let source := "<p>kept</p>\n"
    let root : Element := ⟨⟨"p", []⟩, [.text "kept"]⟩
    let inside : List Item := [.start ⟨"p", []⟩, .text "kept", .finish "p"]
    let behind : List Item := [.text "\n"]
    Divides source root [] inside behind ∧
      ofXhtml source = .ok ⟨root⟩ ∧
      (inside ++ behind).flatMap Item.characters = "kept\n".toList ∧
      ((inside ++ behind).flatMap Item.characters).filter
          (fun character => !Attribute.isSpace character) =
        root.textContent.toList.filter fun character => !Attribute.isSpace character := by
  intro source root inside behind
  have isTag : Reading.readTag ['p'] = .ok ⟨"p", []⟩ := by decide +kernel
  have isBreak : Reference.resolveAll ['\n'] = .ok ['\n'] := by decide +kernel
  have isText : Reference.resolveAll ['k', 'e', 'p', 't'] = .ok ['k', 'e', 'p', 't'] := by
    decide +kernel
  have scanBehind : IsScan ['\n'] behind :=
    .text (by decide) (by decide) (.inl rfl) isBreak .nil
  have scanClosing : IsScan "</p>\n".toList (.finish "p" :: behind) :=
    .markup (by decide +kernel) (.finish ['p']) scanBehind
  have scanText : IsScan "kept</p>\n".toList (.text "kept" :: .finish "p" :: behind) :=
    .text (by decide) (by decide) (.inr ⟨_, rfl⟩) isText scanClosing
  have source_eq : Reading.withoutMark source.toList =
      '<' :: (['p'] ++ '>' :: "kept</p>\n".toList) := by
    decide +kernel
  have isScan : IsScan (Reading.withoutMark source.toList) ([] ++ inside ++ behind) := by
    rw [source_eq]
    exact .markup (by decide +kernel) (.start (by simp [Item.IsNamed]) (by decide) isTag) scanText
  have divides : Divides source root [] inside behind := ⟨isScan, withoutTags_nil, rfl⟩
  obtain ⟨accepted_iff, -, kept_iff⟩ := (ofXhtml_divides source).2 root [] inside behind divides
  have trailing : WithoutTags (behind.filterMap Item.event?) :=
    List.forall_mem_singleton.2 rfl
  refine ⟨divides, (accepted_iff ⟨root⟩).2 ⟨rfl, trailing⟩, by decide +kernel, ?_⟩
  exact (kept_iff Attribute.isSpace).1 (List.all_eq_true.1 (by decide +kernel))

/-- Text behind the root and data in front of it are accepted, and lost. -/
theorem ofXhtml_loses_text :
    let root : Element := ⟨⟨"p", []⟩, [.text "kept"]⟩
    let reading (source : String) : Reading := Reading.ofSource source.toList
    ((reading "<p>kept</p>lost").events =
        [⟨.opening ⟨"p", []⟩, 0, 3⟩, ⟨.text "kept", 3, 7⟩, ⟨.closing "p", 7, 11⟩,
          ⟨.text "lost", 11, 15⟩] ∧
      ofXhtml "<p>kept</p>lost" = .ok ⟨root⟩) ∧
    ((reading "<![CDATA[lost]]><p>kept</p>").events =
        [⟨.text "lost", 0, 16⟩, ⟨.opening ⟨"p", []⟩, 16, 19⟩, ⟨.text "kept", 19, 23⟩,
          ⟨.closing "p", 23, 27⟩] ∧
      ofXhtml "<![CDATA[lost]]><p>kept</p>" = .ok ⟨root⟩) ∧
    root.textContent = "kept" ∧
    ∀ character ∈ "lost".toList, Attribute.isSpace character = false := by
  intro root reading
  have behind_eq : (reading "<p>kept</p>lost").events =
      [⟨.opening ⟨"p", []⟩, 0, 3⟩, ⟨.text "kept", 3, 7⟩, ⟨.closing "p", 7, 11⟩,
        ⟨.text "lost", 11, 15⟩] := by
    decide +kernel
  have before_eq : (reading "<![CDATA[lost]]><p>kept</p>").events =
      [⟨.text "lost", 0, 16⟩, ⟨.opening ⟨"p", []⟩, 16, 19⟩, ⟨.text "kept", 19, 23⟩,
        ⟨.closing "p", 23, 27⟩] := by
    decide +kernel
  have behindEnds : (reading "<p>kept</p>lost").ending = .ok 15 := by decide +kernel
  have beforeEnds : (reading "<![CDATA[lost]]><p>kept</p>").ending = .ok 27 := by decide +kernel
  have noSpaces : "lost".toList.all (fun character => !Attribute.isSpace character) = true := by
    decide +kernel
  refine ⟨⟨behind_eq, ?_⟩, ⟨before_eq, ?_⟩, by decide +kernel, by simpa using noSpaces⟩
  · rw [ofXhtml_eq_ok_iff, Reading.build_eq_ok_iff]
    exact ⟨by rw [behind_eq]; rfl, _, behindEnds⟩
  · rw [ofXhtml_eq_ok_iff, Reading.build_eq_ok_iff]
    exact ⟨by rw [before_eq]; rfl, _, beforeEnds⟩

end Document

end Markup
end Conformance
