import Conformance.Proofs.CrossReference.Walk
import Conformance.Proofs.Markup.Places

/-!
# What anchors stand in

An anchor comes to stand inside the elements around the text node at its offset, and those of later
anchors are the same as before.  All elements hold prose as far as the text of a unit is concerned,
so an anchor can come to stand where no start tag is shown.
-/

namespace Conformance
namespace CrossReference

open Markup
open Prose (Pattern)

/-! ## The text node at an offset -/

/-- A text node that counts as prose. -/
structure EnclosedText where
  /-- The tags of the elements around it, the outermost one first. -/
  around : List Tag
  /-- Its content. -/
  content : String
deriving DecidableEq, Repr

mutual

/-- The text nodes in a node, outside of anchors. -/
def textsIn (anchorClass : String) (around : List Tag) : Node → List EnclosedText
  | .text content => [⟨around, content⟩]
  | .comment _ => []
  | .element tag children =>
      if tag.hasClass anchorClass then [] else texts anchorClass (around ++ [tag]) children

/-- The text nodes among some nodes and at any depth inside, outside of anchors. -/
def texts (anchorClass : String) (around : List Tag) : List Node → List EnclosedText
  | [] => []
  | node :: rest => textsIn anchorClass around node ++ texts anchorClass around rest

end

/-- The tags around the text node at an offset.  Between two text nodes the later one is meant, and
the end of the text belongs to the last one. -/
def tagsAt (offset : Nat) : List EnclosedText → List Tag
  | [] => []
  | [text] => text.around
  | text :: next :: rest =>
      if offset < Text.byteSize text.content.toList then text.around
      else tagsAt (offset - Text.byteSize text.content.toList) (next :: rest)

/-- The characters of some text nodes. -/
def contentsOf (items : List EnclosedText) : List Char :=
  items.flatMap fun text => text.content.toList

theorem contentsOf_append (front back : List EnclosedText) :
    contentsOf (front ++ back) = contentsOf front ++ contentsOf back :=
  List.flatMap_append

@[simp]
theorem texts_append (anchorClass : String) (around : List Tag) (front back : List Node) :
    texts anchorClass around (front ++ back) =
      texts anchorClass around front ++ texts anchorClass around back := by
  induction front with
  | nil => rfl
  | cons node front inductionHypothesis =>
      simp only [List.cons_append, texts, inductionHypothesis, List.append_assoc]

theorem texts_textNode (anchorClass : String) (around : List Tag) (content : List Char) :
    texts anchorClass around (textNode content) =
      if content.isEmpty then [] else [⟨around, String.ofList content⟩] := by
  cases content <;> simp [textNode, texts, textsIn]

/-- The text nodes are those of the text pieces. -/
theorem texts_agree
    (anchorClass : String) :
    (nodes : List Node) → (around : List Tag) →
      contentsOf (texts anchorClass around nodes) = proseOf (marks anchorClass nodes) ∧
        (texts anchorClass around nodes = [] ↔
          (marks anchorClass nodes).any Piece.isText = false)
  | [], _ => by simp [texts, contentsOf]
  | .text content :: rest, around => by
      obtain ⟨contents_eq, -⟩ := texts_agree anchorClass rest around
      rw [contentsOf] at contents_eq
      simp [texts, textsIn, contentsOf, contents_eq, Piece.content, Piece.isText]
  | .comment content :: rest, around => by
      simpa [texts, textsIn] using texts_agree anchorClass rest around
  | .element tag children :: rest, around => by
      obtain ⟨contents_eq, empty_iff⟩ := texts_agree anchorClass rest around
      by_cases isAnchor : tag.hasClass anchorClass = true
      · rw [marks_anchor_cons isAnchor, texts, textsIn, if_pos isAnchor, List.nil_append,
          proseOf_cons, List.any_cons, Piece.isText, Bool.false_or]
        exact ⟨contents_eq, empty_iff⟩
      · obtain ⟨insideContents_eq, insideEmpty_iff⟩ :=
          texts_agree anchorClass children (around ++ [tag])
        rw [texts, textsIn, if_neg isAnchor, marks_element_cons (by simpa using isAnchor),
          contentsOf_append, proseOf_append, contents_eq, insideContents_eq,
          List.append_eq_nil_iff, List.any_append, Bool.or_eq_false_iff, empty_iff,
          insideEmpty_iff]
        exact ⟨rfl, .rfl⟩

/-- Whatever siblings are put into open surroundings, their text nodes stand inside the tags of the
surroundings, between those that stand before and behind. -/
theorem exists_texts_fill
    {anchorClass : String}
    {surroundings : Surroundings}
    (isOpen : surroundings.IsOpen anchorClass)
    (around : List Tag) :
    ∃ front back,
      (∀ nodes, texts anchorClass around (surroundings.fill nodes) =
        front ++ (texts anchorClass (around ++ surroundings.tags) nodes ++ back)) ∧
      contentsOf front = proseOf (surroundings.marksBefore anchorClass) ∧
      (back = [] ↔ (surroundings.marksBehind anchorClass).any Piece.isText = false) := by
  induction surroundings generalizing around with
  | siblings before behind =>
      refine ⟨texts anchorClass around before, texts anchorClass around behind, fun nodes => ?_,
        (texts_agree anchorClass before around).1, (texts_agree anchorClass behind around).2⟩
      simp [Surroundings.fill, Surroundings.tags]
  | inside before tag inner behind inductionHypothesis =>
      obtain ⟨isOther, innerOpen⟩ := isOpen
      obtain ⟨front, back, texts_eq, contents_eq, empty_iff⟩ :=
        inductionHypothesis innerOpen (around ++ [tag])
      refine ⟨texts anchorClass around before ++ front, back ++ texts anchorClass around behind,
        fun nodes => ?_, ?_, ?_⟩
      · simp [Surroundings.fill, Surroundings.tags, texts, textsIn, isOther, texts_eq]
      · rw [contentsOf_append, contents_eq, (texts_agree anchorClass before around).1,
          Surroundings.marksBefore, proseOf_append]
      · rw [List.append_eq_nil_iff, empty_iff, (texts_agree anchorClass behind around).2,
          Surroundings.marksBehind, List.any_append, Bool.or_eq_false_iff]

section TagsAt

variable {text : EnclosedText} {front rest : List EnclosedText} {offset : Nat}

theorem tagsAt_cons_of_lt (inside : offset < Text.byteSize text.content.toList) :
    tagsAt offset (text :: rest) = text.around := by
  cases rest with
  | nil => rfl
  | cons next rest => rw [tagsAt, if_pos inside]

theorem tagsAt_cons_of_le
    (passed : Text.byteSize text.content.toList ≤ offset)
    (nonempty : rest ≠ []) :
    tagsAt offset (text :: rest) =
      tagsAt (offset - Text.byteSize text.content.toList) rest := by
  cases rest with
  | nil => exact absurd rfl nonempty
  | cons next rest => rw [tagsAt, if_neg (by omega)]

/-- Text nodes that end at the offset or before are passed if there are others. -/
theorem tagsAt_append
    (passed : Text.byteSize (contentsOf front) ≤ offset)
    (nonempty : rest ≠ []) :
    tagsAt offset (front ++ rest) = tagsAt (offset - Text.byteSize (contentsOf front)) rest := by
  induction front generalizing offset with
  | nil => rfl
  | cons first front inductionHypothesis =>
      have size : Text.byteSize (contentsOf (first :: front)) =
          Text.byteSize first.content.toList + Text.byteSize (contentsOf front) := by
        simp [contentsOf]
      rw [size] at passed ⊢
      rw [List.cons_append, tagsAt_cons_of_le (by omega) (by simp [nonempty]),
        inductionHypothesis (by omega), Nat.sub_sub]

/-- The tags behind the beginning of a text node are the same when it is divided there. -/
theorem tagsAt_textNode_append
    (anchorClass : String)
    {around : List Tag}
    {first second : List Char}
    (passed : Text.byteSize first ≤ offset)
    (nonempty : first ++ second ≠ []) :
    tagsAt offset (texts anchorClass around (textNode first) ++
        (texts anchorClass around (textNode second) ++ rest)) =
      tagsAt offset (⟨around, String.ofList (first ++ second)⟩ :: rest) := by
  rw [texts_textNode, texts_textNode]
  cases first with
  | nil =>
      have present : second ≠ [] := nonempty
      simp [present]
  | cons character first =>
      cases second with
      | nil => simp
      | cons next second =>
          rw [if_neg (by simp), if_neg (by simp), List.singleton_append, List.singleton_append,
            tagsAt_cons_of_le (by simpa using passed) (by simp), String.toList_ofList]
          have whole : Text.byteSize (String.ofList
              (character :: first ++ next :: second)).toList =
                Text.byteSize (character :: first) + Text.byteSize (next :: second) := by
            rw [String.toList_ofList, Text.byteSize_append]
          by_cases inside : offset < Text.byteSize (character :: first) +
              Text.byteSize (next :: second)
          · rw [tagsAt_cons_of_lt (by rw [String.toList_ofList]; omega),
              tagsAt_cons_of_lt (by rw [whole]; exact inside)]
          · by_cases isLast : rest = []
            · rw [isLast]
              rfl
            · rw [tagsAt_cons_of_le (by rw [String.toList_ofList]; omega) isLast,
                tagsAt_cons_of_le (by rw [whole]; omega) isLast, whole, String.toList_ofList,
                Nat.sub_sub]

end TagsAt

namespace FallsInto

variable {anchorClass : String} {nodes : List Node} {offset : Nat} {surroundings : Surroundings}
  {content : String} {position : Nat}

/-- The tags at an offset are those around the text node that it falls into. -/
theorem tagsAt_eq
    (falls : FallsInto anchorClass nodes offset surroundings content position) :
    tagsAt offset (texts anchorClass [] nodes) = surroundings.tags := by
  obtain ⟨front, back, texts_eq, contents_eq, empty_iff⟩ := exists_texts_fill falls.isOpen []
  have reached := falls.reached
  rw [← contents_eq] at reached
  rw [falls.nodes_eq, texts_eq, tagsAt_append (by omega) (by simp [texts, textsIn])]
  simp only [texts, textsIn, List.singleton_append, List.nil_append, List.append_nil]
  rcases falls.beforeEnd with inside | isLast
  · exact tagsAt_cons_of_lt (by simp; omega)
  · rw [empty_iff.2 isLast]
    rfl

/-- Behind an anchor that is put in, the tags at an offset stay the same. -/
theorem tagsAt_divide
    (falls : FallsInto anchorClass nodes offset surroundings content position)
    {node : Node}
    (isAnchor : node.hasClass anchorClass = true)
    {later : Nat}
    (behind : offset < later)
    (bounded : later ≤ Text.byteSize (proseOf (marks anchorClass nodes))) :
    tagsAt later (texts anchorClass [] (surroundings.fill (divide content position node))) =
      tagsAt later (texts anchorClass [] nodes) := by
  obtain ⟨front, back, texts_eq, contents_eq, empty_iff⟩ := exists_texts_fill falls.isOpen []
  obtain ⟨first, second, content_eq, divide_eq, size⟩ :
      ∃ first second, content.toList = first ++ second ∧
        divide content position node = textNode first ++ node :: textNode second ∧
        Text.byteSize first ≤ position :=
    ⟨_, _, (Text.cutAt_fst_append_snd position content.toList).symm, rfl,
      Text.byteSize_cutAt_fst_le position content.toList⟩
  have noText : textsIn anchorClass surroundings.tags node = [] := by
    cases node with
    | element tag children => exact if_pos isAnchor
    | text content => cases isAnchor
    | comment content => cases isAnchor
  have divided := texts_eq (divide content position node)
  have whole := texts_eq [.text content]
  have reached := falls.reached
  rw [← contents_eq] at reached
  rw [divide_eq, texts_append, texts, List.nil_append, noText, List.nil_append,
    List.append_assoc] at divided
  rw [← falls.nodes_eq, texts, texts, textsIn, List.nil_append, List.append_nil,
    List.singleton_append] at whole
  by_cases nonempty : first ++ second = []
  · -- An empty text node that an offset falls into is the last one, and nothing lies behind it.
    rw [nonempty] at content_eq
    have isLast : back = [] := by
      rw [empty_iff]
      exact falls.beforeEnd.resolve_left (by simp [content_eq])
    rw [← (texts_agree anchorClass nodes []).1, whole, contentsOf_append, isLast,
      Text.byteSize_append] at bounded
    simp only [contentsOf, List.flatMap_cons, List.flatMap_nil, content_eq, List.append_nil,
      Text.byteSize_nil] at bounded reached
    omega
  · have present :
        texts anchorClass surroundings.tags (textNode first) ++
          (texts anchorClass surroundings.tags (textNode second) ++ back) ≠ [] := by
      rw [texts_textNode, texts_textNode]
      cases first <;> cases second <;> simp at nonempty ⊢
    calc tagsAt later (texts anchorClass [] (surroundings.fill (divide content position node)))
        = tagsAt (later - Text.byteSize (contentsOf front))
            (texts anchorClass surroundings.tags (textNode first) ++
              (texts anchorClass surroundings.tags (textNode second) ++ back)) := by
          rw [divide_eq, divided, tagsAt_append (by omega) present]
      _ = tagsAt (later - Text.byteSize (contentsOf front))
            (⟨surroundings.tags, String.ofList (first ++ second)⟩ :: back) :=
          tagsAt_textNode_append anchorClass (by omega) nonempty
      _ = tagsAt later (texts anchorClass [] nodes) := by
          rw [whole, tagsAt_append (by omega) (by simp), ← content_eq, String.ofList_toList]

end FallsInto

/-! ## The places of anchors -/

@[simp]
theorem placed_textNode (asked : Tag → Bool) (around : List Tag) (content : List Char) :
    Node.placed asked around (textNode content) = [] := by
  cases content <;> rfl

namespace Annotator

variable (annotator : Annotator) (coverage : Coverage)

/-- Whether a tag is one of an anchor. -/
def isAnchorTag (tag : Tag) : Bool :=
  tag.hasClass annotator.anchorClass

variable {annotator}
variable (isToken : Text.IsToken annotator.anchorClass)

include isToken

/-- Nothing inside an anchor is one. -/
theorem placedIn_anchor (around : List Tag) (id : String) (keyword : Keyword) :
    Node.placedIn annotator.isAnchorTag around (annotator.anchor coverage id keyword) =
      [⟨around, annotator.anchorTag id keyword⟩] := by
  have isAnchor : annotator.isAnchorTag (annotator.anchorTag id keyword) = true :=
    annotator.hasClass_anchorTag isToken id keyword
  obtain ⟨children, anchor_eq⟩ : ∃ children,
      annotator.anchor coverage id keyword =
        .element (annotator.anchorTag id keyword) children :=
    ⟨_, rfl⟩
  have onlyAnchors (tag : Tag) (isAsked : annotator.isAnchorTag tag = true) :
      tag.hasClass annotator.anchorClass = true :=
    isAsked
  have count := annotator.countTagsIn_anchor onlyAnchors coverage id keyword
  rw [anchor_eq, Node.countTagsIn, if_pos isAnchor] at count
  have inside : Node.placed annotator.isAnchorTag
      (around ++ [annotator.anchorTag id keyword]) children = [] := by
    rw [← List.length_eq_zero_iff, Node.length_placed]
    omega
  rw [anchor_eq, Node.placedIn, if_pos isAnchor, inside, List.append_nil]

/-- An anchor that is put in stands inside the tags at its offset. -/
theorem placed_put
    {insertion : Insertion}
    {planned : Planned}
    {surroundings : Surroundings}
    {content : String}
    {position : Nat}
    (falls : FallsInto annotator.anchorClass insertion.nodes planned.offset
      surroundings content position)
    (around : List Tag) :
    (Node.placed annotator.isAnchorTag around
        (annotator.put coverage insertion planned).nodes).Perm
      (⟨around ++ surroundings.tags, annotator.anchorTag planned.id planned.keyword⟩ ::
        Node.placed annotator.isAnchorTag around insertion.nodes) := by
  obtain ⟨front, back, placed_eq⟩ :=
    surroundings.exists_placed_fill annotator.isAnchorTag around
  rw [annotator.put_eq coverage falls, falls.nodes_eq, placed_eq, placed_eq, divide]
  simp only [Node.placed_append, Node.placed, placed_textNode, placedIn_anchor coverage isToken,
    Node.placedIn, List.nil_append, List.append_nil, List.append_assoc, List.singleton_append]
  exact List.perm_middle

/-- The anchors of a plan come to stand inside the tags at their offsets. -/
theorem placed_foldl_put
    {plan : List Planned}
    (insertion : Insertion)
    (ready : Ready annotator.anchorClass plan insertion.nodes)
    (around : List Tag) :
    (Node.placed annotator.isAnchorTag around
        (plan.foldl (annotator.put coverage) insertion).nodes).Perm
      (plan.map (fun planned =>
          ⟨around ++ tagsAt planned.offset (texts annotator.anchorClass [] insertion.nodes),
            annotator.anchorTag planned.id planned.keyword⟩) ++
        Node.placed annotator.isAnchorTag around insertion.nodes) := by
  induction plan generalizing insertion with
  | nil => exact .refl _
  | cons planned plan inductionHypothesis =>
      obtain ⟨surroundings, content, position, falls⟩ := ready.exists_fallsInto
      have isAnchor := annotator.hasClass_anchor isToken coverage planned.id planned.keyword
      have here := placed_put coverage isToken falls around
      have others := inductionHypothesis _ (annotator.ready_put coverage ready)
      -- The others lie behind the first one, so the tags at their offsets are those of before.
      have sameTags (later : Planned) (member : later ∈ plan) :
          tagsAt later.offset
              (texts annotator.anchorClass [] (annotator.put coverage insertion planned).nodes) =
            tagsAt later.offset (texts annotator.anchorClass [] insertion.nodes) := by
        rw [annotator.put_eq coverage falls]
        exact falls.tagsAt_divide isAnchor
          ((List.pairwise_cons.1 ready.increasing).1 later member)
          (ready.bounded later (List.mem_cons_of_mem planned member))
      rw [List.map_congr_left fun later member => by rw [sameTags later member]] at others
      rw [List.map_cons, falls.tagsAt_eq]
      exact (others.trans (here.append_left _)).trans List.perm_middle

end Annotator

/-! ## Units and what is around them -/

section Perm

variable {Item : Type}

/-- New items among those behind some items can be put first. -/
theorem perm_append_of_perm
    {all new old : List Item}
    (consists : all.Perm (new ++ old))
    (front : List Item) :
    (front ++ all).Perm (new ++ (front ++ old)) :=
  (consists.append_left front).trans (List.perm_append_comm_assoc front new old)

/-- New items in two lists can be put first. -/
theorem perm_append_append
    {first firstNew firstOld second secondNew secondOld : List Item}
    (firstConsists : first.Perm (firstNew ++ firstOld))
    (secondConsists : second.Perm (secondNew ++ secondOld)) :
    (first ++ second).Perm ((firstNew ++ secondNew) ++ (firstOld ++ secondOld)) := by
  rw [List.append_assoc]
  refine (firstConsists.append_right second).trans ?_
  rw [List.append_assoc]
  exact (perm_append_of_perm secondConsists firstOld).append_left firstNew

end Perm

/-- A unit with the tags of the elements around it, the outermost one first. -/
structure EnclosedUnit where
  /-- The tags around. -/
  around : List Tag
  /-- The unit itself. -/
  unit : ProseUnit

/-- The tags around the text node at an offset of the unit. -/
def EnclosedUnit.tagsAt (anchorClass : String) (enclosed : EnclosedUnit) (offset : Nat) :
    List Tag :=
  enclosed.around ++ CrossReference.tagsAt offset (texts anchorClass [] [enclosed.unit.node])

namespace Annotator

section Walk

variable (annotator : Annotator) (replace : ProseUnit → List Node)

/-- The tag of the section that a child of the body is, if it is one. -/
def sectionTags (child : Node) : List Tag :=
  ((annotator.section? child).map Element.tag).toList

/-- The units of the body with the tags around them. -/
def enclosedFrom (around : List Tag) (before : List Node) : List Node → List EnclosedUnit
  | [] => []
  | node :: rest =>
      (annotator.childUnits replace before node).map
          (EnclosedUnit.mk (around ++ annotator.sectionTags node)) ++
        enclosedFrom around (before ++ annotator.replaceChild replace before node) rest

/-- The units of a document with the tags around them. -/
def enclosedUnits (document : Document) : List EnclosedUnit :=
  match document.body? with
  | some body => annotator.enclosedFrom replace [document.root.tag, body.tag] [] body.children
  | none => []

variable {annotator} {replace}

theorem map_unit_enclosedFrom (around : List Tag) (before nodes : List Node) :
    (annotator.enclosedFrom replace around before nodes).map EnclosedUnit.unit =
      annotator.bodyUnitsFrom replace before nodes := by
  induction nodes generalizing before with
  | nil => rfl
  | cons node rest inductionHypothesis =>
      rw [enclosedFrom, bodyUnitsFrom, List.map_append, inductionHypothesis, List.map_map]
      exact congrArg (· ++ _) (List.map_id _)

theorem map_unit_enclosedUnits (document : Document) :
    (annotator.enclosedUnits replace document).map EnclosedUnit.unit =
      annotator.units replace document := by
  unfold enclosedUnits units
  cases document.body? with
  | none => rfl
  | some body => exact map_unit_enclosedFrom _ _ _

variable
  {asked : Tag → Bool}
  {inserted : EnclosedUnit → List PlacedTag}
  (places : ∀ around before node,
    (Node.placed asked around
        (replace (ProseUnit.ofNode annotator.anchorClass before node))).Perm
      (inserted ⟨around, ProseUnit.ofNode annotator.anchorClass before node⟩ ++
        Node.placedIn asked around node))

include places

theorem placed_flatMap_unitsFrom (around : List Tag) (before nodes : List Node) :
    let units := unitsFrom annotator.anchorClass replace before nodes
    (Node.placed asked around (units.flatMap replace)).Perm
      ((units.map (EnclosedUnit.mk around)).flatMap inserted ++
        Node.placed asked around nodes) := by
  intro units
  induction nodes generalizing before with
  | nil => exact .refl _
  | cons node rest inductionHypothesis =>
      have here := places around before node
      have others := inductionHypothesis
        (before ++ replace (ProseUnit.ofNode annotator.anchorClass before node))
      simp only [units, unitsFrom, List.flatMap_cons, List.map_cons, Node.placed_append,
        Node.placed] at others ⊢
      exact perm_append_append here others

theorem placed_replaceChild (around : List Tag) (before : List Node) (node : Node) :
    (Node.placed asked around (annotator.replaceChild replace before node)).Perm
      (((annotator.childUnits replace before node).map
          (EnclosedUnit.mk (around ++ annotator.sectionTags node))).flatMap inserted ++
        Node.placedIn asked around node) := by
  unfold replaceChild childUnits sectionTags
  cases isSection : annotator.section? node with
  | none => simpa using places around before node
  | some element =>
      have inside := placed_flatMap_unitsFrom places (around ++ [element.tag]) [] element.children
      rw [toNode_of_section?_eq_some isSection]
      simp only [replaceSection, Element.toNode, Node.placed, Node.placedIn, List.append_nil,
        Option.map_some, Option.toList_some]
      exact perm_append_of_perm inside _

theorem placed_replaceFrom (around : List Tag) (before nodes : List Node) :
    (Node.placed asked around (annotator.replaceFrom replace before nodes)).Perm
      ((annotator.enclosedFrom replace around before nodes).flatMap inserted ++
        Node.placed asked around nodes) := by
  induction nodes generalizing before with
  | nil => exact .refl _
  | cons node rest inductionHypothesis =>
      have here := placed_replaceChild places around before node
      have others := inductionHypothesis (before ++ annotator.replaceChild replace before node)
      rw [replaceFrom, Node.placed_append, enclosedFrom, List.flatMap_append, Node.placed]
      exact perm_append_append here others

/-- What comes in at the units of a document comes in beside what is there. -/
theorem placed_modifyChild_replaceBody (document : Document) :
    (Document.placed asked
        ⟨document.root.modifyChild "body" (annotator.replaceBody replace)⟩).Perm
      ((annotator.enclosedUnits replace document).flatMap inserted ++ document.placed asked) := by
  rw [Element.modifyChild, enclosedUnits, Document.body?, Element.child?]
  cases isSplit : Element.splitAt? "body" document.root.children with
  | none => exact .refl _
  | some parts =>
      obtain ⟨before, body, after⟩ := parts
      have inside := placed_replaceFrom places [document.root.tag, body.tag] [] body.children
      have children_eq := (Element.eq_of_splitAt?_eq_some isSplit).1
      simp only [Document.placed, Element.toNode, Node.placedIn, children_eq, Option.map_some,
        Node.placed_append, Node.placed, List.nil_append, List.singleton_append, replaceBody,
        List.append_assoc]
      have withAfter := inside.append_right (Node.placed asked [document.root.tag] after)
      rw [List.append_assoc] at withAfter
      exact perm_append_of_perm (perm_append_of_perm (perm_append_of_perm withAfter _) _) _

end Walk

/-! ## Which anchors are shown -/

variable (annotator : Annotator) (coverage : Coverage)

/-- The anchors that come into a unit. -/
def insertedInto
    (candidates : List (SpecAssertion × Pattern))
    (enclosed : EnclosedUnit) :
    List PlacedTag :=
  (enclosed.unit.plan annotator.anchorClass candidates).map fun planned =>
    ⟨enclosed.tagsAt annotator.anchorClass planned.offset,
      annotator.anchorTag planned.id planned.keyword⟩

/-- The units that are visited when a document is annotated, with the tags around them. -/
def enclosedVisits (document : Document) (assertions : List SpecAssertion) :
    List EnclosedUnit :=
  annotator.enclosedUnits (annotator.standIns coverage (candidates assertions)) document

/-- The anchors that come into a document. -/
def inserted (document : Document) (assertions : List SpecAssertion) : List PlacedTag :=
  (annotator.enclosedVisits coverage document assertions).flatMap
    (annotator.insertedInto (candidates assertions))

theorem map_unit_enclosedVisits (document : Document) (assertions : List SpecAssertion) :
    (annotator.enclosedVisits coverage document assertions).map EnclosedUnit.unit =
      annotator.visits coverage document assertions :=
  map_unit_enclosedUnits document

variable {annotator}

/-- What stands for a unit has the anchors of the unit and those of its plan. -/
theorem placed_standIns
    (isToken : Text.IsToken annotator.anchorClass)
    (candidates : List (SpecAssertion × Pattern))
    (around : List Tag)
    (before : List Node)
    (node : Node) :
    let unit := ProseUnit.ofNode annotator.anchorClass before node
    (Node.placed annotator.isAnchorTag around
        (annotator.standIns coverage candidates unit)).Perm
      (annotator.insertedInto candidates ⟨around, unit⟩ ++
        Node.placedIn annotator.isAnchorTag around node) := by
  intro unit
  have placed := placed_foldl_put coverage isToken { nodes := [node] }
    (ProseUnit.ready_plan annotator.anchorClass candidates before node) around
  simp only [Node.placed, List.append_nil] at placed
  exact placed.trans (((inOrder_perm _).map _).append_right _)

/-- An annotated document has the anchors of the document and those that come in. -/
theorem placed_annotate
    (isToken : Text.IsToken annotator.anchorClass)
    (document : Document)
    (assertions : List SpecAssertion) :
    ((annotator.annotate document assertions coverage).1.placed annotator.isAnchorTag).Perm
      (annotator.inserted coverage document assertions ++
        document.placed annotator.isAnchorTag) := by
  rw [annotate_fst]
  exact placed_modifyChild_replaceBody
    (placed_standIns coverage isToken (candidates assertions)) document

variable (annotator) in
/-- None of the anchors that come in is hidden if all of them are planned for text nodes outside of
void elements and raw text elements. -/
theorem forall_mem_inserted_isShown_iff
    (document : Document)
    (assertions : List SpecAssertion) :
    (∀ item ∈ annotator.inserted coverage document assertions, Html.isShown item = true) ↔
      ∀ enclosed ∈ annotator.enclosedVisits coverage document assertions,
        ∀ planned ∈ enclosed.unit.plan annotator.anchorClass (candidates assertions),
          (enclosed.tagsAt annotator.anchorClass planned.offset).any Html.hides = false := by
  simp only [inserted, insertedInto, List.forall_mem_flatMap, List.forall_mem_map, Html.isShown,
    Bool.not_eq_true']

/-- Annotation adds an anchor for every plan of a visited unit, inside the elements around the text
node at its offset, and what is written for the document is read as having all of them beside the
anchors from before exactly if none of those text nodes stands inside a void element or a raw text
element. -/
theorem shown_annotate_iff
    (isToken : Text.IsToken annotator.anchorClass)
    (document : Document)
    (assertions : List SpecAssertion) :
    let annotated := (annotator.annotate document assertions coverage).1
    let inserted := annotator.inserted coverage document assertions
    (annotator.enclosedVisits coverage document assertions).map EnclosedUnit.unit =
        annotator.visits coverage document assertions ∧
      (annotated.placed annotator.isAnchorTag).Perm
        (inserted ++ document.placed annotator.isAnchorTag) ∧
      annotated.toHtml.toList =
        "<!DOCTYPE HTML>\n".toList ++ annotated.written.flatMap Html.Written.text ∧
      ((annotated.shownTags.filter annotator.isAnchorTag).Perm
          (inserted.map PlacedTag.tag ++ document.shownTags.filter annotator.isAnchorTag) ↔
        ∀ enclosed ∈ annotator.enclosedVisits coverage document assertions,
          ∀ planned ∈ enclosed.unit.plan annotator.anchorClass (candidates assertions),
            (enclosed.tagsAt annotator.anchorClass planned.offset).any Html.hides = false) := by
  intro annotated inserted
  have placed := placed_annotate coverage isToken document assertions
  refine ⟨annotator.map_unit_enclosedVisits coverage document assertions, placed,
    annotated.toList_toHtml, ?_⟩
  rw [← annotator.forall_mem_inserted_isShown_iff]
  have shown := (placed.filter Html.isShown).map PlacedTag.tag
  rw [List.filter_append, List.map_append, ← Document.filter_shownTags,
    ← Document.filter_shownTags] at shown
  constructor
  · intro allShown
    have sameLength := (shown.symm.trans allShown).length_eq
    simp only [List.length_append, List.length_map, Nat.add_right_cancel_iff] at sameLength
    exact List.length_filter_eq_length_iff.1 sameLength
  · intro allShown
    rwa [List.filter_eq_self.2 allShown] at shown

/-- An anchor in a paragraph is shown. -/
theorem shown_annotate_paragraph :
    let annotator : Annotator := {}
    let document : Document :=
      ⟨⟨⟨"html", []⟩, [.element ⟨"body", []⟩ [.element ⟨"p", []⟩ [.text "It draws."]]]⟩⟩
    let assertions : List SpecAssertion := [{ id := "draw", text := "draws<^>" }]
    let annotated := (annotator.annotate document assertions {}).1
    Text.IsToken annotator.anchorClass ∧
      annotated.shownTags.filter annotator.isAnchorTag = [annotator.anchorTag "draw" .none] := by
  intro annotator document assertions annotated
  have isToken : Text.IsToken annotator.anchorClass := by decide
  have allShown := (shown_annotate_iff {} isToken document assertions).2.2.2.2 (by decide +kernel)
  have inserted_eq :
      (annotator.inserted {} document assertions).map PlacedTag.tag =
        [annotator.anchorTag "draw" .none] := by
    decide +kernel
  have noneBefore : document.shownTags.filter annotator.isAnchorTag = [] := by decide +kernel
  rw [inserted_eq, noneBefore] at allShown
  exact ⟨isToken, List.perm_singleton.1 allShown⟩

/-- An anchor can come to stand in a script, where its start tag is text of the script. -/
theorem annotate_hides :
    ¬ ∀ (annotator : Annotator) (document : Document) (assertions : List SpecAssertion)
        (coverage : Coverage),
      Text.IsToken annotator.anchorClass →
        ∀ item ∈
            (annotator.annotate document assertions coverage).1.placed annotator.isAnchorTag,
          item ∉ document.placed annotator.isAnchorTag → Html.isShown item = true := by
  intro allShown
  have script := allShown {}
    ⟨⟨⟨"html", []⟩, [.element ⟨"body", []⟩ [.element ⟨"script", []⟩ [.text "draw();"]]]⟩⟩
    [{ id := "draw", text := "draw<^>" }] {} (by decide)
  revert script
  decide +kernel

end Annotator

end CrossReference
end Conformance
