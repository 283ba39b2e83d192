import Conformance.CrossReference.Annotator
import Conformance.Proofs.CrossReference.Sightings
import Conformance.Proofs.Markup.Children
import Mathlib.Data.List.Basic

/-!
# The walk through a document

A walk visits the units of a body in document order, and at every unit the siblings before it are
those that came to stand for the earlier ones.  What comes to stand for a unit is a parameter here:
with the unit itself the walk reads the document as it stands, with the stand-ins of an annotator
it is the walk of that annotator.
-/

namespace Conformance
namespace CrossReference

open Markup
open Prose (Pattern)

/-- The units among siblings.  `before` holds what stands for the siblings before them. -/
def unitsFrom
    (anchorClass : String)
    (replace : ProseUnit → List Node)
    (before : List Node) :
    List Node → List ProseUnit
  | [] => []
  | node :: rest =>
      let unit := ProseUnit.ofNode anchorClass before node
      unit :: unitsFrom anchorClass replace (before ++ replace unit) rest

/-- A unit that stays as it is. -/
def ProseUnit.kept (unit : ProseUnit) : List Node :=
  [unit.node]

/-- Walks that replace the visited units alike visit the same units. -/
theorem unitsFrom_congr
    {anchorClass : String}
    {replace other : ProseUnit → List Node}
    {before nodes : List Node}
    (agree : ∀ unit ∈ unitsFrom anchorClass replace before nodes, replace unit = other unit) :
    unitsFrom anchorClass replace before nodes = unitsFrom anchorClass other before nodes := by
  induction nodes generalizing before with
  | nil => rfl
  | cons node rest inductionHypothesis =>
      simp only [unitsFrom, List.forall_mem_cons] at agree ⊢
      rw [inductionHypothesis agree.2, agree.1]

theorem map_node_unitsFrom
    (anchorClass : String)
    (replace : ProseUnit → List Node)
    (before nodes : List Node) :
    (unitsFrom anchorClass replace before nodes).map ProseUnit.node = nodes := by
  induction nodes generalizing before with
  | nil => rfl
  | cons node rest inductionHypothesis =>
      rw [unitsFrom, List.map_cons, inductionHypothesis]
      rfl

theorem eq_ofNode_of_mem_unitsFrom
    {anchorClass : String}
    {replace : ProseUnit → List Node}
    {before nodes : List Node}
    {unit : ProseUnit}
    (member : unit ∈ unitsFrom anchorClass replace before nodes) :
    unit = ProseUnit.ofNode anchorClass unit.before unit.node := by
  induction nodes generalizing before with
  | nil => cases member
  | cons node rest inductionHypothesis =>
      rcases List.mem_cons.1 member with rfl | later
      · rfl
      · exact inductionHypothesis later

theorem unitsFrom_append
    (anchorClass : String)
    (replace : ProseUnit → List Node)
    (before front back : List Node) :
    unitsFrom anchorClass replace before (front ++ back) =
      unitsFrom anchorClass replace before front ++
        unitsFrom anchorClass replace
          (before ++ (unitsFrom anchorClass replace before front).flatMap replace) back := by
  induction front generalizing before with
  | nil => simp [unitsFrom]
  | cons node front inductionHypothesis =>
      simp only [List.cons_append, unitsFrom, inductionHypothesis, List.flatMap_cons,
        List.append_assoc]

/-- In a document as it stands, a unit is a node behind all its earlier siblings. -/
theorem mem_unitsFrom_kept_iff
    {anchorClass : String}
    {before nodes : List Node}
    {unit : ProseUnit} :
    unit ∈ unitsFrom anchorClass ProseUnit.kept before nodes ↔
      ∃ front node back, nodes = front ++ node :: back ∧
        unit = ProseUnit.ofNode anchorClass (before ++ front) node := by
  induction nodes generalizing before with
  | nil => simp [unitsFrom]
  | cons first rest inductionHypothesis =>
      rw [unitsFrom, List.mem_cons, inductionHypothesis]
      constructor
      · rintro (rfl | ⟨front, node, back, rfl, rfl⟩)
        · exact ⟨[], first, rest, rfl, by rw [List.append_nil]⟩
        · exact ⟨first :: front, node, back, rfl, by rw [List.append_assoc]; rfl⟩
      · rintro ⟨_ | ⟨other, front⟩, node, back, parts, rfl⟩
        · obtain ⟨rfl, rfl⟩ := List.cons.inj parts
          exact .inl (by rw [List.append_nil])
        · obtain ⟨rfl, rfl⟩ := List.cons.inj parts
          exact .inr ⟨front, node, back, rfl, by rw [List.append_assoc]; rfl⟩

theorem flatMap_kept (units : List ProseUnit) :
    units.flatMap ProseUnit.kept = units.map ProseUnit.node := by
  induction units with
  | nil => rfl
  | cons unit units inductionHypothesis =>
      rw [List.flatMap_cons, List.map_cons, inductionHypothesis]
      rfl

namespace Annotator

variable (annotator : Annotator) (replace : ProseUnit → List Node)

/-- What stands for the children of a section. -/
def replaceSection (element : Element) : Element :=
  { element with
    children :=
      (unitsFrom annotator.anchorClass replace [] element.children).flatMap replace }

/-- What stands for a child of the body. -/
def replaceChild (before : List Node) (node : Node) : List Node :=
  match annotator.section? node with
  | some element => [(annotator.replaceSection replace element).toNode]
  | none => replace (ProseUnit.ofNode annotator.anchorClass before node)

/-- The units of a child of the body: the children of a section, or else the child itself. -/
def childUnits (before : List Node) (node : Node) : List ProseUnit :=
  match annotator.section? node with
  | some element => unitsFrom annotator.anchorClass replace [] element.children
  | none => [ProseUnit.ofNode annotator.anchorClass before node]

/-- What stands for the children of the body. -/
def replaceFrom (before : List Node) : List Node → List Node
  | [] => []
  | node :: rest =>
      let nodes := annotator.replaceChild replace before node
      nodes ++ replaceFrom (before ++ nodes) rest

/-- The units of the body. -/
def bodyUnitsFrom (before : List Node) : List Node → List ProseUnit
  | [] => []
  | node :: rest =>
      annotator.childUnits replace before node ++
        bodyUnitsFrom (before ++ annotator.replaceChild replace before node) rest

/-- The body with what stands for its units. -/
def replaceBody (body : Element) : Element :=
  { body with children := annotator.replaceFrom replace [] body.children }

/-- The units of a document. -/
def units (document : Document) : List ProseUnit :=
  match document.body? with
  | some body => annotator.bodyUnitsFrom replace [] body.children
  | none => []

variable {annotator} {replace}

theorem replaceChild_congr
    {other : ProseUnit → List Node}
    {before : List Node}
    {node : Node}
    (agree : ∀ unit ∈ annotator.childUnits replace before node, replace unit = other unit) :
    annotator.replaceChild replace before node = annotator.replaceChild other before node := by
  unfold childUnits at agree
  unfold replaceChild
  cases isSection : annotator.section? node with
  | none => exact agree _ (by simp [isSection])
  | some element =>
      simp only [isSection] at agree
      simp only [replaceSection, ← unitsFrom_congr agree]
      rw [List.flatMap_congr agree]

theorem childUnits_congr
    {other : ProseUnit → List Node}
    {before : List Node}
    {node : Node}
    (agree : ∀ unit ∈ annotator.childUnits replace before node, replace unit = other unit) :
    annotator.childUnits replace before node = annotator.childUnits other before node := by
  unfold childUnits at agree ⊢
  cases isSection : annotator.section? node with
  | none => rfl
  | some element =>
      simp only [isSection] at agree
      exact unitsFrom_congr agree

/-- Walks that replace the visited units of the body alike visit the same units of it. -/
theorem bodyUnitsFrom_congr
    {other : ProseUnit → List Node}
    {before nodes : List Node}
    (agree : ∀ unit ∈ annotator.bodyUnitsFrom replace before nodes, replace unit = other unit) :
    annotator.bodyUnitsFrom replace before nodes = annotator.bodyUnitsFrom other before nodes := by
  induction nodes generalizing before with
  | nil => rfl
  | cons node rest inductionHypothesis =>
      simp only [bodyUnitsFrom, List.forall_mem_append] at agree ⊢
      rw [inductionHypothesis agree.2, childUnits_congr agree.1, replaceChild_congr agree.1]

theorem replaceFrom_congr
    {other : ProseUnit → List Node}
    {before nodes : List Node}
    (agree : ∀ unit ∈ annotator.bodyUnitsFrom replace before nodes, replace unit = other unit) :
    annotator.replaceFrom replace before nodes = annotator.replaceFrom other before nodes := by
  induction nodes generalizing before with
  | nil => rfl
  | cons node rest inductionHypothesis =>
      simp only [bodyUnitsFrom, List.forall_mem_append] at agree
      simp only [replaceFrom]
      rw [inductionHypothesis agree.2, replaceChild_congr agree.1]

theorem toNode_of_section?_eq_some
    {node : Node}
    {element : Element}
    (isSection : annotator.section? node = some element) :
    node = element.toNode := by
  obtain ⟨isElement, _⟩ := Option.filter_eq_some_iff.1 isSection
  cases node with
  | element tag children =>
      cases isElement
      rfl
  | text content => cases isElement
  | comment content => cases isElement

/-- Walks that replace the visited units of a document alike visit the same units. -/
theorem units_congr
    {other : ProseUnit → List Node}
    {document : Document}
    (agree : ∀ unit ∈ annotator.units replace document, replace unit = other unit) :
    annotator.units replace document = annotator.units other document := by
  unfold units at agree ⊢
  cases isBody : document.body? with
  | none => rfl
  | some body =>
      simp only [isBody] at agree
      exact bodyUnitsFrom_congr agree

variable (annotator) in
/-- The units of a child of the body, without what stands before them. -/
def unitNodes (child : Node) : List Node :=
  match annotator.section? child with
  | some element => element.children
  | none => [child]

theorem map_node_childUnits (before : List Node) (child : Node) :
    (annotator.childUnits replace before child).map ProseUnit.node = annotator.unitNodes child := by
  unfold childUnits unitNodes
  cases annotator.section? child with
  | none => rfl
  | some element => exact map_node_unitsFrom _ _ _ _

/-- A walk visits the units of all children of the body. -/
theorem map_node_bodyUnitsFrom (before nodes : List Node) :
    (annotator.bodyUnitsFrom replace before nodes).map ProseUnit.node =
      nodes.flatMap annotator.unitNodes := by
  induction nodes generalizing before with
  | nil => rfl
  | cons node rest inductionHypothesis =>
      rw [bodyUnitsFrom, List.map_append, map_node_childUnits, inductionHypothesis,
        List.flatMap_cons]

theorem map_node_units_eq (other : ProseUnit → List Node) (document : Document) :
    (annotator.units replace document).map ProseUnit.node =
      (annotator.units other document).map ProseUnit.node := by
  unfold units
  cases document.body? with
  | none => rfl
  | some body => exact (map_node_bodyUnitsFrom _ _).trans (map_node_bodyUnitsFrom _ _).symm

theorem eq_ofNode_of_mem_childUnits
    {before : List Node}
    {node : Node}
    {unit : ProseUnit}
    (member : unit ∈ annotator.childUnits replace before node) :
    unit = ProseUnit.ofNode annotator.anchorClass unit.before unit.node := by
  unfold childUnits at member
  cases isSection : annotator.section? node with
  | none =>
      simp only [isSection, List.mem_singleton] at member
      subst member
      rfl
  | some element =>
      simp only [isSection] at member
      exact eq_ofNode_of_mem_unitsFrom member

theorem eq_ofNode_of_mem_bodyUnitsFrom
    {before nodes : List Node}
    {unit : ProseUnit}
    (member : unit ∈ annotator.bodyUnitsFrom replace before nodes) :
    unit = ProseUnit.ofNode annotator.anchorClass unit.before unit.node := by
  induction nodes generalizing before with
  | nil => cases member
  | cons node rest inductionHypothesis =>
      rcases List.mem_append.1 member with here | later
      · exact eq_ofNode_of_mem_childUnits here
      · exact inductionHypothesis later

/-- A unit is a node and the siblings before it. -/
theorem eq_ofNode_of_mem_units
    {document : Document}
    {unit : ProseUnit}
    (isUnit : unit ∈ annotator.units replace document) :
    unit = ProseUnit.ofNode annotator.anchorClass unit.before unit.node := by
  unfold units at isUnit
  cases isBody : document.body? with
  | none => simp [isBody] at isUnit
  | some body =>
      simp only [isBody] at isUnit
      exact eq_ofNode_of_mem_bodyUnitsFrom isUnit

/-! ## A document as it stands -/

@[simp]
theorem replaceSection_kept (element : Element) :
    annotator.replaceSection ProseUnit.kept element = element := by
  rw [replaceSection, flatMap_kept, map_node_unitsFrom]

@[simp]
theorem replaceChild_kept (before : List Node) (node : Node) :
    annotator.replaceChild ProseUnit.kept before node = [node] := by
  unfold replaceChild
  cases isSection : annotator.section? node with
  | none => rfl
  | some element =>
      rw [toNode_of_section?_eq_some isSection]
      simp only [replaceSection_kept]

@[simp]
theorem replaceFrom_kept (before nodes : List Node) :
    annotator.replaceFrom ProseUnit.kept before nodes = nodes := by
  induction nodes generalizing before with
  | nil => rfl
  | cons node rest inductionHypothesis =>
      rw [replaceFrom, inductionHypothesis, replaceChild_kept, List.singleton_append]

/-- In a document as it stands, the units are those of the children behind their siblings. -/
theorem mem_bodyUnitsFrom_kept_iff {before nodes : List Node} {unit : ProseUnit} :
    unit ∈ annotator.bodyUnitsFrom ProseUnit.kept before nodes ↔
      ∃ front node back, nodes = front ++ node :: back ∧
        unit ∈ annotator.childUnits ProseUnit.kept (before ++ front) node := by
  induction nodes generalizing before with
  | nil => simp [bodyUnitsFrom]
  | cons first rest inductionHypothesis =>
      rw [bodyUnitsFrom, List.mem_append, replaceChild_kept, inductionHypothesis]
      constructor
      · rintro (here | ⟨front, node, back, rfl, later⟩)
        · exact ⟨[], first, rest, rfl, by rwa [List.append_nil]⟩
        · exact ⟨first :: front, node, back, rfl, by rwa [List.append_assoc] at later⟩
      · rintro ⟨_ | ⟨other, front⟩, node, back, parts, isUnit⟩
        · obtain ⟨rfl, rfl⟩ := List.cons.inj parts
          exact .inl (by rwa [List.append_nil] at isUnit)
        · obtain ⟨rfl, rfl⟩ := List.cons.inj parts
          exact .inr ⟨front, node, back, rfl, by rwa [List.append_assoc]⟩

/-! ## The walk of an annotator -/

section Annotate

variable (annotator : Annotator) (coverage : Coverage)
  (candidates : List (SpecAssertion × Pattern))

/-- All divisions that are made when units are annotated. -/
def divisionsOf (units : List ProseUnit) : List Division :=
  units.flatMap fun unit => (annotator.insertionFor coverage candidates unit).divisions

/-- What is known after some units. -/
def noteAll (units : List ProseUnit) (findings : Findings) : Findings :=
  ((units.flatMap (ProseUnit.sightings annotator.anchorClass candidates)).foldl
    Findings.note findings).addDivisions (annotator.divisionsOf coverage candidates units)

@[simp]
theorem noteAll_nil (findings : Findings) :
    annotator.noteAll coverage candidates [] findings = findings := by
  simp [noteAll, divisionsOf, Findings.addDivisions]

theorem noteAll_append (first second : List ProseUnit) (findings : Findings) :
    annotator.noteAll coverage candidates (first ++ second) findings =
      annotator.noteAll coverage candidates second
        (annotator.noteAll coverage candidates first findings) := by
  simp [noteAll, divisionsOf, Findings.foldl_note_addDivisions]

theorem annotateUnit_eq_noteAll (before : List Node) (node : Node) (findings : Findings) :
    let unit := ProseUnit.ofNode annotator.anchorClass before node
    annotator.annotateUnit coverage candidates before node findings =
      (annotator.standIns coverage candidates unit,
        annotator.noteAll coverage candidates [unit] findings) := by
  intro unit
  rw [annotateUnit_eq]
  simp [noteAll, divisionsOf, unit]

theorem annotateUnits_eq (before nodes : List Node) (findings : Findings) :
    let replace := annotator.standIns coverage candidates
    let units := unitsFrom annotator.anchorClass replace before nodes
    annotator.annotateUnits coverage candidates before nodes findings =
      (before ++ units.flatMap replace, annotator.noteAll coverage candidates units findings) := by
  intro replace units
  induction nodes generalizing before findings with
  | nil => simp [annotateUnits, units, unitsFrom]
  | cons node rest inductionHypothesis =>
      rw [annotateUnits, annotateUnit_eq_noteAll]
      simp only [inductionHypothesis, units, unitsFrom, List.flatMap_cons, List.append_assoc]
      rw [← noteAll_append, List.singleton_append]

theorem annotateBody_eq (before nodes : List Node) (findings : Findings) :
    let replace := annotator.standIns coverage candidates
    annotator.annotateBody coverage candidates before nodes findings =
      (before ++ annotator.replaceFrom replace before nodes,
        annotator.noteAll coverage candidates (annotator.bodyUnitsFrom replace before nodes)
          findings) := by
  intro replace
  induction nodes generalizing before findings with
  | nil => simp [annotateBody, replaceFrom, bodyUnitsFrom]
  | cons node rest inductionHypothesis =>
      rw [annotateBody, replaceFrom, bodyUnitsFrom, noteAll_append]
      cases isSection : annotator.section? node with
      | some element =>
          simp only [annotateUnits_eq, inductionHypothesis, replaceChild, childUnits, isSection,
            replaceSection, List.nil_append, List.append_assoc]
          rfl
      | none =>
          simp only [annotateUnit_eq_noteAll, inductionHypothesis, replaceChild, childUnits,
            isSection, List.append_assoc]
          rfl

/-- The units that are visited when a document is annotated with some assertions. -/
def visits (document : Document) (assertions : List SpecAssertion) : List ProseUnit :=
  annotator.units (annotator.standIns coverage (Annotator.candidates assertions)) document

/-- The tree of an annotated document is that of the document, with stand-ins in its body. -/
theorem annotate_fst (document : Document) (assertions : List SpecAssertion) :
    (annotator.annotate document assertions coverage).1 =
      ⟨document.root.modifyChild "body" (annotator.replaceBody
        (annotator.standIns coverage (Annotator.candidates assertions)))⟩ := by
  rw [annotate, walk, Element.modifyChild]
  cases Element.splitAt? "body" document.root.children with
  | none => rfl
  | some parts =>
      simp only [annotateBody_eq, replaceBody, List.nil_append]

/-- The body of an annotated document is the body with the stand-ins of its units. -/
theorem body?_annotate (document : Document) (assertions : List SpecAssertion) :
    (annotator.annotate document assertions coverage).1.body? =
      document.body?.map (annotator.replaceBody
        (annotator.standIns coverage (Annotator.candidates assertions))) := by
  rw [annotate_fst]
  have keepsName (found : Element) :
      (annotator.replaceBody (annotator.standIns coverage (Annotator.candidates assertions))
        found).tag.name = found.tag.name :=
    rfl
  exact Element.child?_modifyChild keepsName document.root "body"

/-- Annotation changes nothing beside the body. -/
theorem tag_root_annotate (document : Document) (assertions : List SpecAssertion) :
    (annotator.annotate document assertions coverage).1.root.tag = document.root.tag := by
  rw [annotate_fst, Element.modifyChild]
  split <;> rfl

theorem child?_annotate_of_ne
    {name : String}
    (different : "body" ≠ name)
    (document : Document)
    (assertions : List SpecAssertion) :
    (annotator.annotate document assertions coverage).1.root.child? name =
      document.root.child? name := by
  rw [annotate_fst]
  apply Element.child?_modifyChild_of_ne _ document.root different
  intro body
  rfl

/-- What is known after a walk is what is seen in the visited units, and the review of every
assertion. -/
theorem annotate_snd (document : Document) (assertions : List SpecAssertion) :
    (annotator.annotate document assertions coverage).2 =
      assertions.foldl (review coverage)
        (annotator.noteAll coverage (Annotator.candidates assertions)
          (annotator.visits coverage document assertions)
          { failures := failures assertions }) := by
  rw [annotate, walk, visits, units, Document.body?, Element.child?]
  cases Element.splitAt? "body" document.root.children with
  | none => simp
  | some parts => simp only [annotateBody_eq, Option.map_some]

end Annotate

end Annotator

end CrossReference
end Conformance
