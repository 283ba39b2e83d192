import Conformance.Proofs.Markup.Tags

/-!
# Reading a source piece by piece

Each piece of a written source, a tag, a comment, the document type or text up to the next markup,
is read by itself: the reading begins with the event of the piece and goes on with what is behind.
-/

namespace Conformance
namespace Markup

open scoped Text

/-! ## Where a comment ends -/

namespace Reading

/-- A comment that does not hold its ending ends at the first one. -/
theorem splitFirst?_comment
    {comment : List Char}
    (absent : ¬ ['-', '-', '>'] <:+: comment)
    (text : List Char) :
    Text.splitFirst? ['-', '-', '>'] (comment ++ '-' :: '-' :: '>' :: text) =
      some (comment, text) := by
  induction comment with
  | nil => simp [Text.splitFirst?, Text.after?]
  | cons character comment inductionHypothesis =>
      have notBegun :
          Text.after? ['-', '-', '>'] (character :: (comment ++ '-' :: '-' :: '>' :: text)) =
            none := by
        rw [Option.eq_none_iff_forall_ne_some]
        intro rest begins
        rw [Text.after?_eq_some_iff] at begins
        -- an ending that begins in the comment would need a bracket where a dash is
        rcases comment with _ | ⟨second, _ | ⟨third, more⟩⟩
        · simp at begins
        · simp at begins
        · simp only [List.cons_append, List.nil_append, List.cons.injEq] at begins
          obtain ⟨rfl, rfl, rfl, -⟩ := begins
          exact absent ⟨[], more, rfl⟩
      have notLater : ¬ ['-', '-', '>'] <:+: comment := fun later => absent (List.infix_cons later)
      rw [List.cons_append, Text.splitFirst?, notBegun, inductionHypothesis notLater]
      rfl

theorem content_comment
    {comment : List Char}
    (absent : ¬ ['-', '-', '>'] <:+: comment)
    (text : List Char) :
    content ('!' :: '-' :: '-' :: (comment ++ '-' :: '-' :: '>' :: text)) =
      .ok ('!' :: '-' :: '-' :: (comment ++ ['-', '-']), text) := by
  have isEnding : Text.chars "--" ++ Text.chars ">" = ['-', '-', '>'] := by
    simp [Text.chars_eq_toList]
  simp only [content, untilEnding?, isEnding, splitFirst?_comment absent]
  simp [Text.chars_eq_toList]

theorem ofContent_comment (comment : List Char) (first last : Nat) :
    ofContent first last ('!' :: '-' :: '-' :: (comment ++ ['-', '-'])) =
      .ok (some (.comment (String.ofList comment))) := by
  have isStart : Text.after? (Text.chars "!--") ('!' :: '-' :: '-' :: (comment ++ ['-', '-'])) =
      some (comment ++ ['-', '-']) := by
    simp [Text.chars_eq_toList, Text.after?]
  simp [ofContent, ofDeclaration, isStart]

/-! ## The document type -/

/-- Up to the closing bracket a document type without brackets goes on. -/
theorem untilBalanced?_plain
    {plain : List Char}
    (isPlain : ∀ character ∈ plain, character ≠ '<' ∧ character ≠ '>')
    (text : List Char) :
    untilBalanced? 0 (plain ++ '>' :: text) = some (plain, text) := by
  induction plain with
  | nil => simp [untilBalanced?]
  | cons character plain inductionHypothesis =>
      obtain ⟨⟨notOpening, notClosing⟩, later⟩ := List.forall_mem_cons.1 isPlain
      rw [List.cons_append, untilBalanced?]
      simp [notOpening, notClosing, inductionHypothesis later]

theorem content_doctype (text : List Char) :
    content ('!' :: 'D' :: ("OCTYPE HTML".toList ++ '>' :: text)) =
      .ok ('!' :: 'D' :: "OCTYPE HTML".toList, text) := by
  have isPlain : ∀ character ∈ "OCTYPE HTML".toList, character ≠ '<' ∧ character ≠ '>' := by
    simp
  simp only [content, untilBalanced?_plain isPlain]
  rfl

theorem ofContent_doctype (first last : Nat) :
    ofContent first last ('!' :: 'D' :: "OCTYPE HTML".toList) = .ok none := by
  have isDoctype :
      afterDoctype? ('!' :: 'D' :: "OCTYPE HTML".toList) = some " HTML".toList := by
    decide +kernel
  have hasName : " HTML".toList.all Attribute.isSpace = false := by decide
  simp only [ofContent, ofDeclaration, isDoctype, hasName]
  rfl

/-! ## Steps of a reading -/

/-- The reading begins with some events and goes on like a later one. -/
def Begins (reading : Reading) (events : List Event) (later : Reading) : Prop :=
  ∃ located : List Located, located.map Located.event = events ∧
    reading = { later with events := located ++ later.events }

namespace Begins

theorem refl (reading : Reading) : reading.Begins [] reading :=
  ⟨[], rfl, rfl⟩

theorem trans
    {reading middle later : Reading}
    {front back : List Event}
    (first : reading.Begins front middle)
    (second : middle.Begins back later) :
    reading.Begins (front ++ back) later := by
  obtain ⟨locatedFront, rfl, rfl⟩ := first
  obtain ⟨locatedBack, rfl, rfl⟩ := second
  exact ⟨locatedFront ++ locatedBack, List.map_append, by simp⟩

theorem behind (event : Event) (first last : Nat) (later : Reading) :
    (Reading.behind (some event) first last later).Begins [event] later :=
  ⟨[⟨event, first, last⟩], rfl, rfl⟩

end Begins

/-- What stands between brackets is read as it is meant. -/
theorem ofTextFrom_markup
    {text inner rest : List Char}
    {event : Option Event}
    (isContent : content text = .ok (inner, rest))
    (isMeant : ∀ first last, ofContent first last inner = .ok event)
    (position : Nat) :
    ∃ last, ofTextFrom position ('<' :: text) =
      behind event position last (ofTextFrom last rest) := by
  refine ⟨position + 1 + Text.byteSize inner + 1, ?_⟩
  rw [ofTextFrom]
  split
  · next failed => simp [isContent] at failed
  · next found =>
      rw [isContent, Except.ok.injEq, Prod.mk.injEq] at found
      obtain ⟨rfl, rfl⟩ := found
      simp only [isMeant]

/-- What stands between brackets and means an event is read as that event. -/
theorem begins_markup
    {text inner rest : List Char}
    {event : Event}
    (isContent : content text = .ok (inner, rest))
    (isMeant : ∀ first last, ofContent first last inner = .ok (some event))
    (position : Nat) :
    ∃ last, (ofTextFrom position ('<' :: text)).Begins [event] (ofTextFrom last rest) := by
  obtain ⟨last, reading_eq⟩ := ofTextFrom_markup isContent isMeant position
  exact ⟨last, reading_eq ▸ .behind event position last _⟩

/-- Whether a text is over or goes on with markup. -/
def EndsText (text : List Char) : Prop :=
  text = [] ∨ ∃ rest, text = '<' :: rest

/-- Text up to markup is read as one piece. -/
theorem begins_text
    {written content after : List Char}
    (nonempty : written ≠ [])
    (noMarkup : '<' ∉ written)
    (isContent : Reference.resolveAll written = .ok content)
    (endsText : EndsText after)
    (position : Nat) :
    ∃ last, (ofTextFrom position (written ++ after)).Begins [.text (String.ofList content)]
      (ofTextFrom last after) := by
  obtain ⟨character, rest, rfl⟩ := List.exists_cons_of_ne_nil nonempty
  obtain ⟨notMarkup, noMarkupBehind⟩ := List.ne_and_not_mem_of_not_mem_cons noMarkup
  have inText : ∀ other ∈ rest, (other != '<') = true := by
    intro other member
    rw [bne_iff_ne]
    rintro rfl
    exact noMarkupBehind member
  have taken : (rest ++ after).takeWhile (· != '<') = rest := by
    rw [List.takeWhile_append_of_pos inText]
    rcases endsText with rfl | ⟨later, rfl⟩ <;> simp
  have dropped : (rest ++ after).dropWhile (· != '<') = after := by
    rw [List.dropWhile_append_of_pos inText]
    rcases endsText with rfl | ⟨later, rfl⟩ <;> simp
  refine ⟨position + Text.byteSize (character :: rest), ?_⟩
  rw [List.cons_append, ofTextFrom]
  · simp only [taken, dropped, isContent]
    exact .behind _ _ _ _
  · exact fun isMarkup => notMarkup isMarkup.symm

end Reading

end Markup
end Conformance
