import Conformance.Proofs.Markup.Roundtrip
import Conformance.Proofs.Markup.Scanning
import Conformance.Proofs.Markup.Surroundings

/-!
# The tree that events describe

While a document is built, the open elements hold what the events so far describe: written out as
events again, they give the events from the start of the root on, in which texts that touch are
merged.  The main statement is that the root of a document that is accepted, written out as events,
is what the items of the source from its start to its end mean.
-/

namespace Conformance
namespace Markup

/-! ## Merging texts -/

namespace Event

/-- The events as if every empty tag were a start tag and an end tag. -/
def unfolded : Event → List Event
  | .empty tag => [.opening tag, .closing tag.name]
  | event => [event]

/-- Whether the event is a tag. -/
def isTag : Event → Bool
  | .opening _ => true
  | .empty _ => true
  | .closing _ => true
  | _ => false

/-- The text that an event adds. -/
def characters : Event → List Char
  | .text content => content.toList
  | _ => []

end Event

/-- Puts text in front of events, into the first one if that is text too. -/
def mergeText (content : String) : List Event → List Event
  | .text later :: rest => .text (content ++ later) :: rest
  | events => .text content :: events

/-- The events with texts that follow one another merged into one. -/
def mergeTexts : List Event → List Event
  | [] => []
  | .text content :: rest => mergeText content (mergeTexts rest)
  | event :: rest => event :: mergeTexts rest

/-- No two texts follow one another. -/
def Apart (events : List Event) : Prop :=
  ∀ first second, ¬ [.text first, .text second] <:+: events

section

variable {events front : List Event} {event : Event} {first second content : String}

theorem mergeText_of_ne_text (notText : ∀ content, events.head? ≠ some (.text content)) :
    mergeText content events = .text content :: events := by
  cases events with
  | nil => rfl
  | cons event rest =>
      cases event with
      | text later => exact absurd rfl (notText later)
      | _ => rfl

theorem mergeText_mergeText (first second : String) (events : List Event) :
    mergeText first (mergeText second events) = mergeText (first ++ second) events := by
  cases events with
  | nil => rfl
  | cons event rest => cases event <;> simp [mergeText, String.append_assoc]

/-- What follows a text only decides what is merged with its end. -/
theorem mergeTexts_mergeText_append (content : String) (events back : List Event) :
    mergeTexts (mergeText content events ++ back) =
      mergeText content (mergeTexts (events ++ back)) := by
  cases events with
  | nil => rfl
  | cons event rest =>
      cases event with
      | text later => exact (mergeText_mergeText content later _).symm
      | _ => rfl

/-- Events that are merged already may stand for those that they come from. -/
theorem mergeTexts_append (front back : List Event) :
    mergeTexts (front ++ back) = mergeTexts (mergeTexts front ++ back) := by
  induction front with
  | nil => rfl
  | cons event front inductionHypothesis =>
      cases event with
      | text content =>
          simp only [List.cons_append, mergeTexts, mergeTexts_mergeText_append,
            inductionHypothesis]
      | _ => simp only [List.cons_append, mergeTexts, inductionHypothesis]

theorem mergeTexts_append_text_text (front : List Event) (first second : String) :
    mergeTexts (front ++ [.text first, .text second]) =
      mergeTexts (front ++ [.text (first ++ second)]) := by
  induction front with
  | nil => rfl
  | cons event front inductionHypothesis =>
      cases event <;> simp only [List.cons_append, mergeTexts, inductionHypothesis]

theorem apart_nil : Apart [] := by
  simp [Apart]

theorem apart_cons_iff :
    Apart (event :: events) ↔
      Apart events ∧
        ∀ first second, event = .text first → events.head? ≠ some (.text second) := by
  simp only [Apart, List.infix_cons_iff, not_or, List.cons_prefix_cons]
  constructor
  · intro apart
    refine ⟨fun first second => (apart first second).2, ?_⟩
    rintro first second rfl begins
    refine (apart first second).1 ⟨rfl, ?_⟩
    obtain ⟨rest, rfl⟩ := List.head?_eq_some_iff.1 begins
    exact ⟨rest, rfl⟩
  · rintro ⟨apart, notTexts⟩ first second
    refine ⟨?_, apart first second⟩
    rintro ⟨rfl, rest, rfl⟩
    exact notTexts first second rfl rfl

/-- No texts follow one another in merged events. -/
theorem apart_mergeTexts (events : List Event) : Apart (mergeTexts events) := by
  induction events with
  | nil => exact apart_nil
  | cons event events inductionHypothesis =>
      cases event with
      | text content =>
          rw [mergeTexts]
          cases merged : mergeTexts events with
          | nil => exact apart_cons_iff.2 ⟨apart_nil, by simp⟩
          | cons next rest =>
              rw [merged, apart_cons_iff] at inductionHypothesis
              obtain ⟨restApart, notTexts⟩ := inductionHypothesis
              cases next with
              | text later =>
                  exact apart_cons_iff.2 ⟨restApart, fun _ second _ => notTexts later second rfl⟩
              | _ =>
                  refine apart_cons_iff.2 ⟨apart_cons_iff.2 ⟨restApart, notTexts⟩, ?_⟩
                  simp
      | _ => exact apart_cons_iff.2 ⟨inductionHypothesis, by simp⟩

/-- Merging changes nothing where no texts follow one another. -/
theorem mergeTexts_eq_self (apart : Apart events) : mergeTexts events = events := by
  induction events with
  | nil => rfl
  | cons event events inductionHypothesis =>
      obtain ⟨restApart, notTexts⟩ := apart_cons_iff.1 apart
      cases event with
      | text content =>
          rw [mergeTexts, inductionHypothesis restApart,
            mergeText_of_ne_text fun later => notTexts content later rfl]
      | _ => simp only [mergeTexts, inductionHypothesis restApart]

theorem apart_concat_iff :
    Apart (events ++ [event]) ↔
      Apart events ∧
        ∀ first second, event = .text second → events.getLast? ≠ some (.text first) := by
  simp only [Apart, List.infix_concat_iff, List.suffix_concat_iff, not_or]
  constructor
  · intro apart
    refine ⟨fun first second => (apart first second).2, ?_⟩
    rintro first second rfl ends
    refine (apart first second).1.2 ⟨[.text first], rfl, ?_⟩
    obtain ⟨front, rfl⟩ := List.getLast?_eq_some_iff.1 ends
    exact ⟨front, rfl⟩
  · rintro ⟨apart, notTexts⟩ first second
    refine ⟨⟨List.cons_ne_nil _ _, ?_⟩, apart first second⟩
    rintro ⟨before, parts, front, rfl⟩
    have split : [Event.text first] ++ [.text second] = before ++ [event] := parts
    obtain ⟨rfl, isEvent⟩ := List.append_inj' split rfl
    exact notTexts first second (List.singleton_inj.1 isEvent).symm (by simp)

/-- A further event is not merged unless it is a text behind a text. -/
theorem mergeTexts_concat
    {merged : List Event}
    (isMerged : mergeTexts events = merged)
    (event : Event)
    (notTexts : ∀ first second, event = .text second → merged.getLast? ≠ some (.text first)) :
    mergeTexts (events ++ [event]) = merged ++ [event] := by
  subst isMerged
  rw [mergeTexts_append]
  exact mergeTexts_eq_self (apart_concat_iff.2 ⟨apart_mergeTexts events, notTexts⟩)

theorem mergeTexts_concat_of_ne_text
    {merged : List Event}
    (isMerged : mergeTexts events = merged)
    (event : Event)
    (notText : ∀ content, event ≠ .text content) :
    mergeTexts (events ++ [event]) = merged ++ [event] :=
  mergeTexts_concat isMerged event fun _ second isText => absurd isText (notText second)

/-- A further text is merged with a text at the end. -/
theorem mergeTexts_concat_text
    (isMerged : mergeTexts events = front ++ [.text first]) :
    mergeTexts (events ++ [.text second]) = front ++ [.text (first ++ second)] := by
  have apart := apart_mergeTexts events
  rw [isMerged, apart_concat_iff] at apart
  obtain ⟨frontApart, notTexts⟩ := apart
  rw [mergeTexts_append, isMerged, List.append_assoc, List.singleton_append,
    mergeTexts_append_text_text]
  exact mergeTexts_eq_self (apart_concat_iff.2 ⟨frontApart, fun earlier _ _ =>
    notTexts earlier first rfl⟩)

/-- Merging keeps the text. -/
theorem flatMap_characters_mergeTexts (events : List Event) :
    (mergeTexts events).flatMap Event.characters = events.flatMap Event.characters := by
  induction events with
  | nil => rfl
  | cons event events inductionHypothesis =>
      cases event with
      | text content =>
          rw [mergeTexts, List.flatMap_cons, ← inductionHypothesis]
          cases mergeTexts events with
          | nil => rfl
          | cons next rest => cases next <;> simp [mergeText, Event.characters]
      | _ => simp only [mergeTexts, List.flatMap_cons, inductionHypothesis]

end

/-! ## Events of nodes -/

@[simp]
theorem eventsOf_append (front back : List Node) :
    eventsOf (front ++ back) = eventsOf front ++ eventsOf back := by
  induction front with
  | nil => rfl
  | cons node front inductionHypothesis =>
      rw [List.cons_append, eventsOf, eventsOf, inductionHypothesis, List.append_assoc]

@[simp]
theorem eventsOf_singleton (node : Node) : eventsOf [node] = eventsOfNode node := by
  simp [eventsOf]

mutual

theorem flatMap_characters_eventsOfNode :
    (node : Node) → (eventsOfNode node).flatMap Event.characters = node.textContent.toList
  | .element tag children => by
      simp [eventsOfNode, Node.textContent, Event.characters,
        flatMap_characters_eventsOf children]
  | .text content => by simp [eventsOfNode, Node.textContent, Event.characters]
  | .comment content => by simp [eventsOfNode, Node.textContent, Event.characters]

/-- The text of nodes is that of their events. -/
theorem flatMap_characters_eventsOf :
    (nodes : List Node) →
      (eventsOf nodes).flatMap Event.characters = (Node.textContents nodes).toList
  | [] => by simp [eventsOf, Node.textContents]
  | node :: rest => by
      simp [eventsOf, Node.textContents, flatMap_characters_eventsOfNode node,
        flatMap_characters_eventsOf rest]

end

theorem eventsOfNode_infix_of_mem
    {nodes : List Node}
    {node : Node}
    (member : node ∈ nodes) :
    eventsOfNode node <:+: eventsOf nodes := by
  obtain ⟨front, back, rfl⟩ := List.append_of_mem member
  rw [eventsOf_append, eventsOf]
  exact ⟨eventsOf front, eventsOf back, by simp⟩

theorem eventsOf_infix_eventsOfNode (tag : Tag) (children : List Node) :
    eventsOf children <:+: eventsOfNode (.element tag children) := by
  rw [eventsOfNode]
  exact ⟨[.opening tag], [.closing tag.name], rfl⟩

/-- The events of a node inside are among those of the nodes, one after the other. -/
theorem eventsOfNode_infix_of_at?
    {path : List Nat}
    {nodes : List Node}
    {node : Node}
    (found : Node.at? path nodes = some node) :
    eventsOfNode node <:+: eventsOf nodes := by
  induction path generalizing nodes with
  | nil => simp at found
  | cons index path inductionHypothesis =>
      obtain ⟨rfl, child⟩ | ⟨tag, children, child, inside⟩ := Node.at?_cons_eq_some_iff.1 found
      · exact eventsOfNode_infix_of_mem (List.mem_of_getElem? child)
      · have inElement := eventsOf_infix_eventsOfNode tag children
        have inNodes := eventsOfNode_infix_of_mem (List.mem_of_getElem? child)
        exact (inductionHypothesis inside).trans (inElement.trans inNodes)

theorem eventsOfNode_infix_of_descendant?
    {root element : Element}
    {path : List Nat}
    (found : root.descendant? path = some element) :
    eventsOfNode element.toNode <:+: eventsOfNode root.toNode := by
  unfold Element.descendant? at found
  split at found
  · cases found
    exact List.infix_rfl
  · obtain ⟨node, reached, isElement⟩ := Option.bind_eq_some_iff.1 found
    cases node with
    | element tag children =>
        cases isElement
        exact (eventsOfNode_infix_of_at? reached).trans
          (eventsOf_infix_eventsOfNode root.tag root.children)
    | _ => cases isElement

/-- Where no texts follow one another, no element has two texts as neighbouring children. -/
theorem not_adjacent_of_apart
    {root element : Element}
    {path : List Nat}
    (apart : Apart (eventsOfNode root.toNode))
    (found : root.descendant? path = some element)
    (first second : String) :
    ¬ [.text first, .text second] <:+: element.children := by
  rintro ⟨front, back, children_eq⟩
  apply apart first second
  refine List.IsInfix.trans ?_ (eventsOfNode_infix_of_descendant? found)
  refine List.IsInfix.trans ?_ (eventsOf_infix_eventsOfNode element.tag element.children)
  rw [← children_eq]
  exact ⟨eventsOf front, eventsOf back, by simp [eventsOf, eventsOfNode]⟩

/-! ## What a building holds -/

/-- The events of elements that are open, the innermost one first. -/
def eventsOfOpened : List OpenElement → List Event
  | [] => []
  | innermost :: outer =>
      eventsOfOpened outer ++ .opening innermost.tag :: eventsOf innermost.latest.reverse

/-- Adding a node to the innermost open element adds the events of the node. -/
theorem eventsOfOpened_add (innermost : OpenElement) (outer : List OpenElement) (node : Node) :
    eventsOfOpened (innermost.add node :: outer) =
      eventsOfOpened (innermost :: outer) ++ eventsOfNode node := by
  simp [eventsOfOpened, OpenElement.add]

/-- Behind a node that is no text, the last event is no text. -/
theorem getLast?_eventsOfOpened_ne_text
    {innermost : OpenElement}
    (notText : startsWithText innermost.latest = false)
    (outer : List OpenElement)
    (content : String) :
    (eventsOfOpened (innermost :: outer)).getLast? ≠ some (.text content) := by
  obtain ⟨tag, latest⟩ := innermost
  cases latest with
  | nil => simp [eventsOfOpened, eventsOf]
  | cons node rest =>
      have added := eventsOfOpened_add ⟨tag, rest⟩ outer node
      rw [OpenElement.add] at added
      rw [added]
      cases node with
      | text given => cases notText
      | comment given => simp [eventsOfNode]
      | element inner children => simp [eventsOfNode, List.getLast?_cons]

/-- Closing the innermost open element adds it behind the events of the others. -/
theorem eventsOfOpened_cons_append_closing (innermost : OpenElement) (outer : List OpenElement) :
    eventsOfOpened (innermost :: outer) ++ [.closing innermost.tag.name] =
      eventsOfOpened outer ++ eventsOfNode innermost.close.toNode := by
  simp [eventsOfOpened, eventsOfNode, Element.toNode, OpenElement.close]

/-- None of the events is a tag. -/
def WithoutTags (events : List Event) : Prop :=
  ∀ event ∈ events, event.isTag = false

theorem withoutTags_nil : WithoutTags [] :=
  List.forall_mem_nil _

theorem WithoutTags.concat
    {events : List Event}
    {event : Event}
    (withoutTags : WithoutTags events)
    (noTag : event.isTag = false) :
    WithoutTags (events ++ [event]) :=
  List.forall_mem_append.2 ⟨withoutTags, List.forall_mem_singleton.2 noTag⟩

/-- The building is what the events so far describe.  Nothing is said about an element that was
opened behind the root, which can never be closed. -/
inductive Building.Describes : List Event → Building → Prop where
  /-- The root has not begun. -/
  | before {before : List Event}
      (leading : WithoutTags before) :
      Describes before {}
  /-- The root is open. -/
  | inside {before inside : List Event} {innermost : OpenElement} {outer : List OpenElement}
      (leading : WithoutTags before)
      (holds : mergeTexts (inside.flatMap Event.unfolded) = eventsOfOpened (innermost :: outer)) :
      Describes (before ++ inside) ⟨innermost :: outer, none⟩
  /-- The root is complete. -/
  | behind {before inside behind : List Event} {root : Element}
      (leading : WithoutTags before)
      (holds : mergeTexts (inside.flatMap Event.unfolded) = eventsOfNode root.toNode)
      (trailing : WithoutTags behind) :
      Describes (before ++ inside ++ behind) ⟨[], some root⟩
  /-- Another element is open behind the root. -/
  | excess {events : List Event} {innermost : OpenElement} {outer : List OpenElement}
      {root : Element} :
      Describes events ⟨innermost :: outer, some root⟩

namespace Building

variable {events before inside behind : List Event} {building later : Building}
  {located : Located} {innermost : OpenElement} {outer : List OpenElement} {root : Element}

/-- In front of the root nothing is held. -/
theorem describes_step_before
    (leading : WithoutTags before)
    (steps : Building.step {} located = .ok later) :
    Describes (before ++ [located.event]) later := by
  obtain ⟨event, first, last⟩ := located
  cases event with
  | opening tag =>
      cases steps
      exact .inside leading rfl
  | empty tag =>
      cases steps
      have described : Describes (before ++ [.empty tag] ++ []) ⟨[], some ⟨tag, []⟩⟩ :=
        .behind leading rfl withoutTags_nil
      rwa [List.append_nil] at described
  | closing name => cases steps
  | text content =>
      cases steps
      exact .before (leading.concat rfl)
  | comment content =>
      cases steps
      exact .before (leading.concat rfl)

/-- Inside the root every event adds itself to the innermost open element, or closes it. -/
theorem describes_step_inside
    (leading : WithoutTags before)
    (holds : mergeTexts (inside.flatMap Event.unfolded) = eventsOfOpened (innermost :: outer))
    (steps : Building.step ⟨innermost :: outer, none⟩ located = .ok later) :
    Describes (before ++ inside ++ [located.event]) later := by
  obtain ⟨event, first, last⟩ := located
  rw [List.append_assoc]
  have unfolds : (inside ++ [event]).flatMap Event.unfolded =
      inside.flatMap Event.unfolded ++ event.unfolded := by simp
  cases event with
  | opening tag =>
      cases steps
      refine .inside leading ?_
      rw [unfolds]
      exact mergeTexts_concat_of_ne_text holds _ (by simp)
  | empty tag =>
      cases steps
      refine .inside leading ?_
      have opens := mergeTexts_concat_of_ne_text holds (.opening tag) (by simp)
      have closes := mergeTexts_concat_of_ne_text opens (.closing tag.name) (by simp)
      rw [unfolds, eventsOfOpened_add]
      simpa [Event.unfolded, eventsOfNode, eventsOf, Element.toNode] using closes
  | closing name =>
      by_cases isName : innermost.tag.name = name
      · subst isName
        have closes := mergeTexts_concat_of_ne_text holds (.closing innermost.tag.name) (by simp)
        rw [eventsOfOpened_cons_append_closing] at closes
        simp only [Building.step, close, if_true] at steps
        cases outer with
        | nil =>
            cases steps
            have described := Describes.behind leading (unfolds ▸ closes) withoutTags_nil
            rwa [List.append_nil] at described
        | cons parent outer =>
            cases steps
            refine .inside leading ?_
            rw [unfolds, eventsOfOpened_add]
            exact closes
      · simp [Building.step, close, isName] at steps
  | text content =>
      cases steps
      refine .inside leading ?_
      rw [unfolds]
      by_cases notText : startsWithText innermost.latest = false
      · have added := OpenElement.addText_of_startsWithText_eq_false notText content
        simp only [added, eventsOfOpened_add]
        exact mergeTexts_concat holds _ fun earlier _ _ =>
          getLast?_eventsOfOpened_ne_text notText outer earlier
      · obtain ⟨tag, latest⟩ := innermost
        rcases latest with _ | ⟨_ | earlier | _, rest⟩
        · exact absurd rfl notText
        · exact absurd rfl notText
        · have added := eventsOfOpened_add ⟨tag, rest⟩ outer (.text earlier)
          have addedMore := eventsOfOpened_add ⟨tag, rest⟩ outer (.text (earlier ++ content))
          exact (mergeTexts_concat_text (holds.trans added)).trans addedMore.symm
        · exact absurd rfl notText
  | comment content =>
      cases steps
      refine .inside leading ?_
      rw [unfolds, eventsOfOpened_add]
      exact mergeTexts_concat_of_ne_text holds _ (by simp)

/-- Behind the root nothing is added to it. -/
theorem describes_step_behind
    (leading : WithoutTags before)
    (holds : mergeTexts (inside.flatMap Event.unfolded) = eventsOfNode root.toNode)
    (trailing : WithoutTags behind)
    (steps : Building.step ⟨[], some root⟩ located = .ok later) :
    Describes (before ++ inside ++ behind ++ [located.event]) later := by
  obtain ⟨event, first, last⟩ := located
  cases event with
  | opening tag =>
      cases steps
      exact .excess
  | empty tag => cases steps
  | closing name => cases steps
  | text content =>
      cases steps
      rw [List.append_assoc]
      exact .behind leading holds (trailing.concat rfl)
  | comment content =>
      cases steps
      rw [List.append_assoc]
      exact .behind leading holds (trailing.concat rfl)

/-- An element that is open behind the root stays open. -/
theorem describes_step_excess
    (steps : Building.step ⟨innermost :: outer, some root⟩ located = .ok later) :
    Describes (events ++ [located.event]) later := by
  obtain ⟨event, first, last⟩ := located
  cases event with
  | closing name =>
      by_cases isName : innermost.tag.name = name
      · simp only [Building.step, close, if_pos isName] at steps
        cases outer with
        | nil => cases steps
        | cons parent outer =>
            cases steps
            exact .excess
      · simp [Building.step, close, isName] at steps
  | _ =>
      cases steps
      exact .excess

/-- A further event goes on with what the events so far describe. -/
theorem Describes.step
    (describes : Describes events building)
    (steps : building.step located = .ok later) :
    Describes (events ++ [located.event]) later := by
  cases describes with
  | before leading => exact describes_step_before leading steps
  | inside leading holds => exact describes_step_inside leading holds steps
  | behind leading holds trailing => exact describes_step_behind leading holds trailing steps
  | excess => exact describes_step_excess steps

/-- All events describe what is built from them. -/
theorem Describes.foldlM_step
    {rest : List Located}
    (describes : Describes events building)
    (steps : rest.foldlM Building.step building = .ok later) :
    Describes (events ++ rest.map Located.event) later := by
  induction rest generalizing events building with
  | nil =>
      cases steps
      simpa using describes
  | cons located rest inductionHypothesis =>
      rw [List.foldlM_cons] at steps
      cases first : building.step located with
      | error refusal =>
          rw [first] at steps
          cases steps
      | ok next =>
          rw [first] at steps
          simpa using inductionHypothesis (describes.step first) steps

end Building

/-- A root that is built is described by the events that are read: those from its start to its end,
with no tag in front of them or behind. -/
theorem Reading.eventsOfNode_of_build
    {reading : Reading}
    {root : Element}
    (isBuilt : reading.build = .ok root) :
    ∃ before inside behind,
      reading.events.map Located.event = before ++ inside ++ behind ∧
        WithoutTags before ∧ WithoutTags behind ∧
        mergeTexts (inside.flatMap Event.unfolded) = eventsOfNode root.toNode ∧
        ∃ position, reading.ending = .ok position := by
  simp only [build, bind, Except.bind] at isBuilt
  split at isBuilt
  · cases isBuilt
  · next building steps =>
      split at isBuilt
      · cases isBuilt
      · next position ends =>
          have describes := (Building.Describes.before withoutTags_nil).foldlM_step steps
          rw [List.nil_append] at describes
          generalize reading.events.map Located.event = events at describes
          cases describes with
          | before leading => cases isBuilt
          | inside leading holds => cases isBuilt
          | excess => cases isBuilt
          | @behind before inside behind built leading holds trailing =>
              cases isBuilt
              exact ⟨before, inside, behind, rfl, leading, trailing, holds, position, ends⟩

/-- The text that items add is that of their events. -/
theorem flatMap_characters_filterMap_event? (items : List Item) :
    ((items.filterMap Item.event?).flatMap Event.unfolded).flatMap Event.characters =
      items.flatMap Item.characters := by
  induction items with
  | nil => rfl
  | cons item items inductionHypothesis =>
      rw [List.flatMap_cons, ← inductionHypothesis]
      cases item <;>
        simp [List.filterMap_cons, Item.event?, Item.characters, Event.unfolded, Event.characters]

/-- A document that is accepted is the tree that the items of its source describe.  No tag stands in
front of the root or behind it.  Written out as events, the root gives what the items from its start
to its end mean, an empty tag as a start and an end, with texts merged where nothing or only what
means nothing stands in between.  So no two texts stand side by side in the tree, and its text is
all text and character data inside the root. -/
theorem Document.eventsOfNode_of_ofXhtml
    {source : String}
    {document : Document}
    (accepted : Document.ofXhtml source = .ok document) :
    ∃ before inside behind : List Item,
      IsScan (Reading.withoutMark source.toList) (before ++ inside ++ behind) ∧
      (Reading.ofSource source.toList).events.map Located.event =
        (before ++ inside ++ behind).filterMap Item.event? ∧
      WithoutTags (before.filterMap Item.event?) ∧
      WithoutTags (behind.filterMap Item.event?) ∧
      eventsOfNode document.root.toNode =
        mergeTexts ((inside.filterMap Item.event?).flatMap Event.unfolded) ∧
      (∀ path element, document.root.descendant? path = some element →
        ∀ first second, ¬ [.text first, .text second] <:+: element.children) ∧
      document.root.textContent.toList = inside.flatMap Item.characters := by
  rw [ofXhtml] at accepted
  split at accepted
  · next root isBuilt =>
      cases accepted
      obtain ⟨before, inside, behind, events_eq, leading, trailing, holds, ends, isEnding⟩ :=
        Reading.eventsOfNode_of_build isBuilt
      rw [Reading.ofSource_eq] at isEnding events_eq ⊢
      obtain ⟨items, isScan, meant⟩ := Reading.exists_isScan isEnding
      -- The items are divided where the events are.
      have divided := meant.symm.trans events_eq
      obtain ⟨upTo, after, rfl, isUpTo, rfl⟩ := List.filterMap_eq_append_iff.1 divided
      obtain ⟨front, middle, rfl, rfl, rfl⟩ := List.filterMap_eq_append_iff.1 isUpTo
      have apart : Apart (eventsOfNode root.toNode) := by
        rw [← holds]
        exact apart_mergeTexts _
      refine ⟨front, middle, after, isScan, meant, leading, trailing, holds.symm,
        fun path element found => not_adjacent_of_apart apart found, ?_⟩
      rw [← flatMap_characters_filterMap_event?, ← flatMap_characters_mergeTexts, holds,
        flatMap_characters_eventsOfNode]
      rfl
  · cases accepted

/-- Text, a reference, data and, behind an instruction, more text become one text node. -/
theorem Document.eventsOfNode_of_ofXhtml_merged :
    let source := "<!DOCTYPE p><p id=\"a\">&lt;<![CDATA[&]]><?go?>y<!--c--><b/></p>\n"
    let root : Element := ⟨⟨"p", [("id", "a")]⟩, [.text "<&y", .comment "c", .element ⟨"b", []⟩ []]⟩
    Document.ofXhtml source = .ok ⟨root⟩ ∧
      ∃ items : List Item,
        eventsOfNode root.toNode =
          mergeTexts ((items.filterMap Item.event?).flatMap Event.unfolded) ∧
        items.flatMap Item.characters = "<&y".toList := by
  intro source root
  have events_eq : (Reading.ofSource source.toList).events =
      [⟨.opening ⟨"p", [("id", "a")]⟩, 12, 22⟩, ⟨.text "<", 22, 26⟩, ⟨.text "&", 26, 39⟩,
        ⟨.text "y", 45, 46⟩, ⟨.comment "c", 46, 54⟩, ⟨.empty ⟨"b", []⟩, 54, 58⟩,
        ⟨.closing "p", 58, 62⟩, ⟨.text "\n", 62, 63⟩] := by
    decide +kernel
  have isEnding : (Reading.ofSource source.toList).ending = .ok 63 := by decide +kernel
  have accepted : Document.ofXhtml source = .ok ⟨root⟩ := by
    rw [ofXhtml, Reading.build, events_eq, isEnding]
    rfl
  obtain ⟨_, inside, _, _, _, _, _, merged_eq, _, text_eq⟩ := eventsOfNode_of_ofXhtml accepted
  exact ⟨accepted, inside, merged_eq, text_eq.symm.trans (by decide +kernel)⟩

end Markup
end Conformance
