import Conformance.Markup.Document
import Conformance.Proofs.Markup.Reading

/-!
# Reading back written documents

A tree is written as the events of its nodes, one after the other, and reading the written source
gives these events.  Building them gives the tree back: the events of some nodes add the nodes to
the innermost open element.
-/

namespace Conformance
namespace Markup

open scoped Text

/-- Whether siblings begin with text. -/
def startsWithText : List Node → Bool
  | .text _ :: _ => true
  | _ => false

/-- Whether siblings can be written in HTML and read back: tags can, text is neither empty nor next
to other text, and comments do not hold what ends them. -/
inductive Writable : List Node → Prop where
  | nil : Writable []
  | element {tag : Tag} {children rest : List Node} :
      tag.Writable → Writable children → Writable rest → Writable (.element tag children :: rest)
  | text {content : String} {rest : List Node} :
      content ≠ "" → startsWithText rest = false → Writable rest →
      Writable (.text content :: rest)
  | comment {content : String} {rest : List Node} :
      ¬ "-->".toList <:+: content.toList → Writable rest → Writable (.comment content :: rest)

mutual

/-- The events of a node. -/
def eventsOfNode : Node → List Event
  | .element tag children => .opening tag :: (eventsOf children ++ [.closing tag.name])
  | .text content => [.text content]
  | .comment content => [.comment content]

/-- The events of nodes, one after the other. -/
def eventsOf : List Node → List Event
  | [] => []
  | node :: rest => eventsOfNode node ++ eventsOf rest

end

open Html (escape)

/-! ## Reading written nodes -/

namespace Reading

/-- Behind text, written nodes go on with markup. -/
theorem endsText_nodes
    {nodes : List Node}
    (notText : startsWithText nodes = false)
    {after : List Char}
    (endsText : EndsText after) :
    EndsText (Html.nodes false nodes ++ after) := by
  cases nodes with
  | nil => exact endsText
  | cons node rest =>
      cases node with
      | text content => cases notText
      | comment content =>
          right
          simp [Html.nodes, Html.node, Text.chars_eq_toList]
      | element tag children =>
          right
          rw [Html.nodes, Html.node, Html.startTag_eq]
          split <;> exact ⟨_, rfl⟩

theorem begins_startTag
    {tag : Tag}
    (writable : tag.Writable)
    (position : Nat)
    (after : List Char) :
    ∃ last, (ofTextFrom position (Html.startTag tag ++ after)).Begins [.opening tag]
      (ofTextFrom last after) := by
  rw [Html.startTag_eq, List.cons_append, List.append_assoc]
  exact begins_markup (content_tagText writable after) (ofContent_tagText writable) position

theorem begins_endTag
    {tag : Tag}
    (writable : tag.Writable)
    (position : Nat)
    (after : List Char) :
    ∃ last, (ofTextFrom position (Html.endTag tag ++ after)).Begins [.closing tag.name]
      (ofTextFrom last after) := by
  rw [Html.endTag_eq, List.cons_append, List.cons_append, List.append_assoc]
  exact begins_markup (content_endTag writable.named after) (ofContent_endTag writable.named) position

/-- Written nodes are read as their events. -/
theorem begins_nodes
    {nodes : List Node}
    (writable : Writable nodes)
    {after : List Char}
    (endsText : EndsText after)
    (position : Nat) :
    ∃ last, (ofTextFrom position (Html.nodes false nodes ++ after)).Begins (eventsOf nodes)
      (ofTextFrom last after) := by
  induction writable generalizing position after with
  | nil => exact ⟨position, .refl _⟩
  | @element tag children rest tagWritable _ _ childrenHypothesis restHypothesis =>
      have written : Html.nodes false (.element tag children :: rest) ++ after =
          Html.startTag tag ++ (Html.nodes false children ++
            (Html.endTag tag ++ (Html.nodes false rest ++ after))) := by
        simp [Html.nodes, Html.node, tagWritable.notVoid, tagWritable.notRawText]
      have closes : EndsText (Html.endTag tag ++ (Html.nodes false rest ++ after)) := by
        rw [Html.endTag_eq]
        exact .inr ⟨_, rfl⟩
      obtain ⟨opened, opening⟩ := begins_startTag tagWritable position
        (Html.nodes false children ++ (Html.endTag tag ++ (Html.nodes false rest ++ after)))
      obtain ⟨filled, inside⟩ := childrenHypothesis closes opened
      obtain ⟨closed, closing⟩ := begins_endTag tagWritable filled (Html.nodes false rest ++ after)
      obtain ⟨last, behind⟩ := restHypothesis endsText closed
      refine ⟨last, ?_⟩
      rw [written, eventsOf, eventsOfNode]
      simpa using opening.trans (inside.trans (closing.trans behind))
  | @text content rest nonempty notText _ restHypothesis =>
      have isNonempty : content.toList ≠ [] := by
        simpa using nonempty
      have written : Html.nodes false (.text content :: rest) ++ after =
          escape content.toList ++ (Html.nodes false rest ++ after) := by
        simp [Html.nodes, Html.node]
      obtain ⟨ended, piece⟩ := begins_text (Html.escape_ne_nil isNonempty)
        (Html.notMem_escape (by simp) content.toList) (Html.resolveAll_escape content.toList)
        (endsText_nodes notText endsText) position
      obtain ⟨last, behind⟩ := restHypothesis endsText ended
      refine ⟨last, ?_⟩
      rw [String.ofList_toList] at piece
      rw [written, eventsOf, eventsOfNode]
      exact piece.trans behind
  | @comment content rest absent _ restHypothesis =>
      have written : Html.nodes false (.comment content :: rest) ++ after =
          '<' :: '!' :: '-' :: '-' ::
            (content.toList ++ '-' :: '-' :: '>' :: (Html.nodes false rest ++ after)) := by
        simp [Html.nodes, Html.node, Text.chars_eq_toList]
      obtain ⟨ended, piece⟩ := begins_markup
        (content_comment absent (Html.nodes false rest ++ after))
        (ofContent_comment content.toList) position
      obtain ⟨last, behind⟩ := restHypothesis endsText ended
      refine ⟨last, ?_⟩
      rw [String.ofList_toList] at piece
      rw [written, eventsOf, eventsOfNode]
      exact piece.trans behind

end Reading

/-! ## Building read nodes -/

/-- An open element inside which some more nodes stand. -/
def OpenElement.addAll (element : OpenElement) (nodes : List Node) : OpenElement :=
  { element with latest := nodes.reverse ++ element.latest }

namespace OpenElement

theorem addAll_cons (element : OpenElement) (node : Node) (rest : List Node) :
    element.addAll (node :: rest) = (element.add node).addAll rest := by
  simp [addAll, add]

theorem close_addAll (tag : Tag) (children : List Node) :
    (OpenElement.addAll { tag := tag } children).close = ⟨tag, children⟩ := by
  simp [addAll, close]

/-- Behind a node that is no text, text is a node of its own. -/
theorem addText_of_startsWithText_eq_false
    {element : OpenElement}
    (notText : startsWithText element.latest = false)
    (content : String) :
    element.addText content = element.add (.text content) := by
  unfold addText
  split
  · next earlier rest isLatest =>
      rw [isLatest] at notText
      cases notText
  · rfl

end OpenElement

/-- Siblings among which, and among whose descendants, no texts stand side by side. -/
inductive Separate : List Node → Prop where
  | nil : Separate []
  | element {tag : Tag} {children rest : List Node} :
      Separate children → Separate rest → Separate (.element tag children :: rest)
  | text {content : String} {rest : List Node} :
      startsWithText rest = false → Separate rest → Separate (.text content :: rest)
  | comment {content : String} {rest : List Node} :
      Separate rest → Separate (.comment content :: rest)

theorem Writable.separate {nodes : List Node} (writable : Writable nodes) : Separate nodes := by
  induction writable with
  | nil => exact .nil
  | element _ _ _ childrenHypothesis restHypothesis =>
      exact .element childrenHypothesis restHypothesis
  | text _ notText _ restHypothesis => exact .text notText restHypothesis
  | comment _ _ restHypothesis => exact .comment restHypothesis

namespace Building

variable {building : Building} {innermost : OpenElement} {outer : List OpenElement}
  {root : Option Element}

/-- Continues with an event wherever it stands, unless the event is refused. -/
def advance (building : Building) (event : Event) : Option Building :=
  (building.step ⟨event, 0, 0⟩).toOption

theorem toOption_addElement (building : Building) (position : Nat) (element : Element) :
    (building.addElement position element).toOption =
      (building.addElement 0 element).toOption := by
  rcases building with ⟨_ | ⟨parent, outer⟩, _ | root⟩ <;> rfl

/-- The position of an event only matters where the event is refused. -/
theorem toOption_step (building : Building) (located : Located) :
    (building.step located).toOption = building.advance located.event := by
  obtain ⟨event, first, last⟩ := located
  cases event with
  | empty tag => exact toOption_addElement building last _
  | closing name =>
      rcases building with ⟨_ | ⟨innermost, outer⟩, root⟩
      · rfl
      · by_cases isName : innermost.tag.name = name
        · simp only [advance, step, close, if_pos isName]
          exact toOption_addElement _ last _
        · simp only [advance, step, close, if_neg isName]
          rfl
  | _ => rfl

theorem toOption_foldlM_step (building : Building) (located : List Located) :
    (located.foldlM step building).toOption =
      (located.map Located.event).foldlM advance building := by
  induction located generalizing building with
  | nil => rfl
  | cons first located inductionHypothesis =>
      rw [List.foldlM_cons, List.map_cons, List.foldlM_cons, ← toOption_step]
      cases building.step first with
      | error refusal => rfl
      | ok later => exact inductionHypothesis later

/-- Events build what they build without their positions. -/
theorem foldlM_step_eq_ok_iff {later : Building} {located : List Located} :
    located.foldlM step building = .ok later ↔
      (located.map Located.event).foldlM advance building = some later := by
  rw [← toOption_foldlM_step]
  cases located.foldlM step building <;> simp [Except.toOption]

/-- The events of an element add it, if those in between add its children. -/
theorem foldlM_advance_element
    {tag : Tag}
    {children : List Node}
    (fills : (eventsOf children).foldlM advance
        ⟨{ tag := tag } :: building.opened, building.root⟩ =
      some ⟨OpenElement.addAll { tag := tag } children :: building.opened, building.root⟩) :
    (eventsOfNode (.element tag children)).foldlM advance building =
      (building.addElement 0 ⟨tag, children⟩).toOption := by
  have opens :
      building.advance (.opening tag) =
        some ⟨{ tag := tag } :: building.opened, building.root⟩ := rfl
  have closes :
      advance ⟨OpenElement.addAll { tag := tag } children :: building.opened, building.root⟩
          (.closing tag.name) =
        (building.addElement 0 ⟨tag, children⟩).toOption := by
    simp only [advance, step, close, OpenElement.close_addAll]
    exact congrArg Except.toOption (if_pos rfl)
  rw [eventsOfNode, List.foldlM_cons, opens, Option.bind_eq_bind, Option.bind_some,
    List.foldlM_append, fills, Option.bind_eq_bind, Option.bind_some, List.foldlM_cons, closes]
  exact Option.bind_fun_some _

/-- The events of some nodes add the nodes to the innermost open element. -/
theorem foldlM_advance_nodes
    {nodes : List Node}
    (separate : Separate nodes)
    (apart : startsWithText nodes = false ∨ startsWithText innermost.latest = false) :
    (eventsOf nodes).foldlM advance ⟨innermost :: outer, root⟩ =
      some ⟨innermost.addAll nodes :: outer, root⟩ := by
  induction separate generalizing innermost outer with
  | nil => rfl
  | @element tag children rest _ _ childrenHypothesis restHypothesis =>
      have adds : (eventsOfNode (.element tag children)).foldlM advance
            ⟨innermost :: outer, root⟩ =
          some ⟨innermost.add (.element tag children) :: outer, root⟩ :=
        foldlM_advance_element (childrenHypothesis (.inr rfl))
      rw [eventsOf, List.foldlM_append, adds, OpenElement.addAll_cons]
      exact restHypothesis (.inr rfl)
  | @text content rest notText _ restHypothesis =>
      have adds : advance ⟨innermost :: outer, root⟩ (.text content) =
          some ⟨innermost.add (.text content) :: outer, root⟩ := by
        have notMerged := OpenElement.addText_of_startsWithText_eq_false
          (apart.resolve_left Bool.noConfusion) content
        simp [advance, step, modifyInnermost, notMerged, Except.toOption]
      rw [eventsOf, List.foldlM_append, eventsOfNode, List.foldlM_cons, adds,
        OpenElement.addAll_cons]
      exact restHypothesis (.inl notText)
  | @comment content rest _ restHypothesis =>
      rw [eventsOf, List.foldlM_append, OpenElement.addAll_cons]
      exact restHypothesis (.inr rfl)

/-- From the beginning of a source the events of an element build the element as the root. -/
theorem foldlM_advance_root {element : Element} (separate : Separate element.children) :
    (eventsOfNode element.toNode).foldlM advance {} = some { root := some element } :=
  foldlM_advance_element (foldlM_advance_nodes separate (.inr rfl))

/-- Text and then the events of an element, from the beginning of a source, build the element as
the root. -/
theorem foldlM_step_root
    {element : Element}
    (writable : Writable [element.toNode])
    {content : String}
    {located : List Located}
    (areEvents : located.map Located.event = .text content :: eventsOf [element.toNode]) :
    located.foldlM step {} = .ok { root := some element } := by
  cases writable with
  | element _ childrenWritable _ =>
      rw [foldlM_step_eq_ok_iff, areEvents, eventsOf, eventsOf, List.append_nil]
      exact foldlM_advance_root childrenWritable.separate

end Building

/-! ## Reading back a document -/

namespace Reading

/-- A written document is read as the line break behind its type and the events of its root. -/
theorem begins_document {root : Element} (writable : Writable [root.toNode]) :
    ∃ last, (ofSource (Html.document root)).Begins (.text "\n" :: eventsOf [root.toNode])
      { events := [], ending := .ok last } := by
  have written : Html.document root =
      '<' :: ('!' :: 'D' :: ("OCTYPE HTML".toList ++ '>' ::
        (['\n'] ++ (Html.nodes false [root.toNode] ++ [])))) := by
    simp [Html.document, Html.nodes, Text.chars_eq_toList]
  have lineBreak : Reference.resolveAll ['\n'] = .ok ['\n'] := by
    simp [Reference.resolveAll, Reference.resolveFrom]
  obtain ⟨first, typed⟩ := ofTextFrom_markup (content_doctype
    (['\n'] ++ (Html.nodes false [root.toNode] ++ []))) ofContent_doctype 0
  have fromType : ofSource (Html.document root) =
      ofTextFrom first (['\n'] ++ (Html.nodes false [root.toNode] ++ [])) :=
    calc ofSource (Html.document root)
      _ = ofTextFrom 0 _ := by rw [written]; rfl
      _ = behind none 0 first _ := typed
      _ = ofTextFrom first _ := rfl
  have isMarkup : EndsText (Html.nodes false [root.toNode] ++ []) :=
    endsText_nodes rfl (.inl rfl)
  obtain ⟨second, piece⟩ :=
    begins_text (List.cons_ne_nil _ _) (by decide) lineBreak isMarkup first
  obtain ⟨last, filled⟩ := begins_nodes writable (.inl rfl) second
  rw [ofTextFrom] at filled
  exact ⟨last, fromType ▸ piece.trans filled⟩

end Reading

/-- A document is read back as it was written. -/
theorem Document.ofXhtml_toHtml
    {document : Document}
    (writable : Writable [document.root.toNode]) :
    Document.ofXhtml document.toHtml = .ok document := by
  obtain ⟨last, located, areEvents, reading_eq⟩ := Reading.begins_document writable
  have builds := Building.foldlM_step_root writable areEvents
  have isBuilt : (Reading.ofSource (Html.document document.root)).build = .ok document.root := by
    rw [reading_eq, Reading.build, List.append_nil, builds]
    rfl
  rw [ofXhtml, toHtml, String.toList_ofList, isBuilt]

/-- Values and text with quotes, brackets and what looks like a reference come back. -/
theorem Document.ofXhtml_toHtml_quoted :
    let inner : List Node := [.text "a < b &lt; \"c\"", .comment " -> ", .element { name := "b" } []]
    let document : Document := ⟨{ name := "p", attributes := [("title", "\"x\" & 'y' > z")] }, inner⟩
    Writable [document.root.toNode] ∧
      document.toHtml =
        "<!DOCTYPE HTML>\n<p title=\"&quot;x&quot; &amp; 'y' &gt; z\">" ++
          "a &lt; b &amp;lt; &quot;c&quot;<!-- -> --><b></b></p>" ∧
      Document.ofXhtml document.toHtml = .ok document := by
  intro inner document
  have isBold : Tag.Writable { name := "b" } :=
    ⟨by decide, nofun, .nil, by decide, by decide⟩
  have isParagraph : Tag.Writable document.root.tag :=
    ⟨by decide, by decide, by decide, by decide, by decide⟩
  have innerWritable : Writable inner :=
    .text (by decide) rfl (.comment (by decide) (.element isBold .nil .nil))
  have writable : Writable [document.root.toNode] := .element isParagraph innerWritable .nil
  exact ⟨writable, by decide +kernel, Document.ofXhtml_toHtml writable⟩

end Markup
end Conformance
