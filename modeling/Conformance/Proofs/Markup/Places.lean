import Conformance.Markup.Document
import Conformance.Proofs.Markup.Surroundings

/-!
# Places of elements

The place of an element is given by the elements around it, and it decides how the element is
written.  Inside a void element nothing is written, and inside a raw text element a start tag is
written among text in which it does not count as one.
-/

namespace Conformance
namespace Markup

/-- The tag of an element and those of the elements around it, the outermost one first. -/
structure PlacedTag where
  /-- The tags around. -/
  around : List Tag
  /-- The tag itself. -/
  tag : Tag
deriving DecidableEq, Repr

namespace Node

mutual

/-- The tags, that of the node itself included, that are asked for. -/
def placedIn (asked : Tag → Bool) (around : List Tag) : Node → List PlacedTag
  | .element tag children =>
      (if asked tag then [⟨around, tag⟩] else []) ++ placed asked (around ++ [tag]) children
  | .text _ => []
  | .comment _ => []

/-- The tags among some nodes and at any depth inside that are asked for. -/
def placed (asked : Tag → Bool) (around : List Tag) : List Node → List PlacedTag
  | [] => []
  | node :: rest => placedIn asked around node ++ placed asked around rest

end

variable {asked : Tag → Bool}

@[simp]
theorem placed_append (around : List Tag) (front back : List Node) :
    placed asked around (front ++ back) =
      placed asked around front ++ placed asked around back := by
  induction front with
  | nil => rfl
  | cons node front inductionHypothesis =>
      simp only [List.cons_append, placed, inductionHypothesis, List.append_assoc]

mutual

theorem length_placedIn :
    (node : Node) → (around : List Tag) →
      (placedIn asked around node).length = countTagsIn asked node
  | .element tag children, around => by
      rw [placedIn, countTagsIn, List.length_append, length_placed children]
      split <;> rfl
  | .text _, _ => rfl
  | .comment _, _ => rfl

/-- As many tags have a place as are counted. -/
theorem length_placed :
    (nodes : List Node) → (around : List Tag) →
      (placed asked around nodes).length = countTags asked nodes
  | [], _ => rfl
  | node :: rest, around => by
      rw [placed, countTags, List.length_append, length_placedIn node, length_placed rest]

end

mutual

theorem isPrefix_around_of_mem_placedIn
    {item : PlacedTag} :
    (node : Node) → (around : List Tag) → item ∈ placedIn asked around node →
      around <+: item.around
  | .element tag children, around, member => by
      rw [placedIn] at member
      rcases List.mem_append.1 member with here | inside
      · split at here
        · obtain rfl := List.mem_singleton.1 here
          exact List.prefix_refl _
        · cases here
      · exact (List.prefix_append around [tag]).trans
          (isPrefix_around_of_mem_placed children (around ++ [tag]) inside)
  | .text _, _, member => nomatch member
  | .comment _, _, member => nomatch member

/-- The elements around some nodes are around everything inside. -/
theorem isPrefix_around_of_mem_placed
    {item : PlacedTag} :
    (nodes : List Node) → (around : List Tag) → item ∈ placed asked around nodes →
      around <+: item.around
  | [], _, member => nomatch member
  | node :: rest, around, member => by
      rcases List.mem_append.1 member with here | later
      · exact isPrefix_around_of_mem_placedIn node around here
      · exact isPrefix_around_of_mem_placed rest around later

end

end Node

namespace Surroundings

/-- The tags of the elements around the siblings, the outermost one first. -/
def tags : Surroundings → List Tag
  | .siblings _ _ => []
  | .inside _ tag inner _ => tag :: inner.tags

/-- Whatever siblings are put into surroundings, they stand inside its tags, and nothing else
moves. -/
theorem exists_placed_fill
    (asked : Tag → Bool)
    (surroundings : Surroundings)
    (around : List Tag) :
    ∃ front back, ∀ nodes,
      Node.placed asked around (surroundings.fill nodes) =
        front ++ Node.placed asked (around ++ surroundings.tags) nodes ++ back := by
  induction surroundings generalizing around with
  | siblings before behind =>
      exact ⟨Node.placed asked around before, Node.placed asked around behind, fun nodes => by
        simp [fill, tags]⟩
  | inside before tag inner behind inductionHypothesis =>
      obtain ⟨front, back, placed_eq⟩ := inductionHypothesis (around ++ [tag])
      refine ⟨Node.placed asked around before ++
        (if asked tag then [⟨around, tag⟩] else []) ++ front,
        back ++ Node.placed asked around behind, fun nodes => ?_⟩
      simp [fill, tags, Node.placed, Node.placedIn, placed_eq]

end Surroundings

/-! ## How elements are written -/

namespace Html

/-- A part of what is written for some nodes. -/
inductive Written where
  /-- A start tag; `raw` tells whether it stands inside a raw text element. -/
  | startTag (raw : Bool) (tag : Tag)
  /-- An end tag. -/
  | endTag (tag : Tag)
  /-- Text or a comment. -/
  | other (text : List Char)
deriving DecidableEq, Repr

namespace Written

/-- The text of a part. -/
def text : Written → List Char
  | .startTag _ tag => Html.startTag tag
  | .endTag tag => Html.endTag tag
  | .other text => text

/-- The start tag that a part is read as. -/
def shown? : Written → Option Tag
  | .startTag false tag => some tag
  | _ => none

@[simp]
theorem shown?_startTag (raw : Bool) (tag : Tag) :
    (startTag raw tag).shown? = if raw then none else some tag := by
  cases raw <;> rfl

@[simp]
theorem shown?_endTag (tag : Tag) : (endTag tag).shown? = none :=
  rfl

end Written

mutual

/-- What is written for a node, part by part. -/
def writtenIn (raw : Bool) : Node → List Written
  | .text content => [.other (node raw (.text content))]
  | .comment content => [.other (node raw (.comment content))]
  | .element tag children =>
      if voidNames.contains tag.name then [.startTag raw tag]
      else
        .startTag raw tag ::
          (written (raw || rawTextNames.contains tag.name) children ++ [.endTag tag])

/-- What is written for some nodes, part by part. -/
def written (raw : Bool) : List Node → List Written
  | [] => []
  | first :: rest => writtenIn raw first ++ written raw rest

end

mutual

/-- The parts make up what is written for a node. -/
theorem flatMap_text_writtenIn :
    (raw : Bool) → (first : Node) → (writtenIn raw first).flatMap Written.text = node raw first
  | raw, .text content => by simp [writtenIn, Written.text]
  | raw, .comment content => by simp [writtenIn, Written.text]
  | raw, .element tag children => by
      rw [writtenIn, node]
      split
      · simp [Written.text]
      · simp [Written.text, flatMap_text_written]

theorem flatMap_text_written :
    (raw : Bool) → (items : List Node) → (written raw items).flatMap Written.text = nodes raw items
  | _, [] => by simp [written, nodes]
  | raw, first :: rest => by
      simp [written, nodes, flatMap_text_writtenIn, flatMap_text_written]

end

/-- Whether tags inside an element are not shown: it is a void element or a raw text element. -/
def hides (tag : Tag) : Bool :=
  voidNames.contains tag.name || rawTextNames.contains tag.name

/-- Whether a start tag is shown at its place. -/
def isShown (item : PlacedTag) : Bool :=
  !item.around.any hides

mutual

theorem filterMap_shown?_writtenIn_raw :
    (first : Node) → (writtenIn true first).filterMap Written.shown? = []
  | .text _ => rfl
  | .comment _ => rfl
  | .element tag children => by
      rw [writtenIn]
      split
      · rfl
      · rw [List.filterMap_cons_none (by simp), List.filterMap_append, Bool.true_or,
          filterMap_shown?_written_raw children]
        rfl

/-- Inside a raw text element no start tag is shown. -/
theorem filterMap_shown?_written_raw :
    (items : List Node) → (written true items).filterMap Written.shown? = []
  | [] => rfl
  | first :: rest => by
      rw [written, List.filterMap_append, filterMap_shown?_writtenIn_raw first,
        filterMap_shown?_written_raw rest]
      rfl

end

theorem filter_isShown_placed_eq_nil
    {asked : Tag → Bool}
    {around : List Tag}
    (hidden : around.any hides = true)
    (items : List Node) :
    (Node.placed asked around items).filter isShown = [] := by
  rw [List.filter_eq_nil_iff]
  intro item member
  obtain ⟨inner, around_eq⟩ := Node.isPrefix_around_of_mem_placed items around member
  simp [isShown, ← around_eq, hidden]

mutual

theorem filter_shown_writtenIn
    (asked : Tag → Bool)
    {around : List Tag}
    (visible : around.any hides = false) :
    (first : Node) →
      ((writtenIn false first).filterMap Written.shown?).filter asked =
        ((Node.placedIn asked around first).filter isShown).map PlacedTag.tag
  | .text _ => rfl
  | .comment _ => rfl
  | .element tag children => by
      have here :
          ((if asked tag then [PlacedTag.mk around tag] else []).filter isShown).map
            PlacedTag.tag = [tag].filter asked := by
        by_cases isAsked : asked tag = true <;> simp [isAsked, isShown, visible]
      have deeper : (around ++ [tag]).any hides = hides tag := by
        simp [List.any_append, visible]
      have inside :
          ((if voidNames.contains tag.name then []
            else written (rawTextNames.contains tag.name) children).filterMap
              Written.shown?).filter asked =
            ((Node.placed asked (around ++ [tag]) children).filter isShown).map
              PlacedTag.tag := by
        by_cases isVoid : voidNames.contains tag.name = true
        · rw [if_pos isVoid, filter_isShown_placed_eq_nil (by rw [deeper, hides, isVoid]; rfl)]
          rfl
        · rw [if_neg isVoid]
          rw [Bool.not_eq_true] at isVoid
          cases isRaw : rawTextNames.contains tag.name with
          | true =>
              rw [filterMap_shown?_written_raw,
                filter_isShown_placed_eq_nil (by rw [deeper, hides, isVoid, isRaw]; rfl)]
              rfl
          | false =>
              exact filter_shown_written asked (by rw [deeper, hides, isVoid, isRaw]; rfl) children
      rw [Node.placedIn, List.filter_append, List.map_append, here, ← inside, writtenIn]
      split
      · simp
      · have opens : (Written.startTag false tag).shown? = some tag := rfl
        have closes : [Written.endTag tag].filterMap Written.shown? = [] := rfl
        rw [List.filterMap_cons_some opens, List.filterMap_append, closes, List.append_nil,
          Bool.false_or, ← List.singleton_append, List.filter_append]

/-- The start tags that are shown are those whose place does not hide them. -/
theorem filter_shown_written
    (asked : Tag → Bool)
    {around : List Tag}
    (visible : around.any hides = false) :
    (items : List Node) →
      ((written false items).filterMap Written.shown?).filter asked =
        ((Node.placed asked around items).filter isShown).map PlacedTag.tag
  | [] => rfl
  | first :: rest => by
      rw [written, Node.placed, List.filterMap_append, List.filter_append, List.filter_append,
        List.map_append, filter_shown_writtenIn asked visible first,
        filter_shown_written asked visible rest]

end

end Html

namespace Document

/-- The tags of a document that are asked for. -/
def placed (asked : Tag → Bool) (document : Document) : List PlacedTag :=
  Node.placedIn asked [] document.root.toNode

/-- The parts of a written document, behind its first line. -/
def written (document : Document) : List Html.Written :=
  Html.writtenIn false document.root.toNode

/-- The start tags in a written document, without those inside raw text elements. -/
def shownTags (document : Document) : List Tag :=
  document.written.filterMap Html.Written.shown?

theorem toList_toHtml (document : Document) :
    document.toHtml.toList =
      "<!DOCTYPE HTML>\n".toList ++ document.written.flatMap Html.Written.text := by
  rw [written, Html.flatMap_text_writtenIn, toHtml, Html.document]
  simp [Text.chars_eq_toList]

theorem filter_shownTags (asked : Tag → Bool) (document : Document) :
    document.shownTags.filter asked =
      ((document.placed asked).filter Html.isShown).map PlacedTag.tag :=
  Html.filter_shown_writtenIn asked rfl document.root.toNode

end Document

end Markup
end Conformance
