import Conformance.Proofs.CrossReference.Divisions
import Conformance.Proofs.CrossReference.Parallel
import Mathlib.Logic.Relation

/-!
# Annotating in place

A body can also be annotated in place: an index goes through a list of siblings that grows while
anchors are put into it, and the index steps over as many siblings as stand for the unit by then.
Two such loops are nested, one for the children of the body and one for those of a section.

The main statement is that the loops come to an end with the same tree and the same findings as the
walk that is defined by recursion on the units.  At each call the unit and all siblings behind it
are the original ones, so every unit is visited once, and nothing that was put in ever is.  Where
the class of anchors is a single word, no text node is divided inside a character on the way.
-/

namespace Conformance
namespace CrossReference

open Markup
open Prose (Pattern)

/-! ## One unit among its siblings -/

/-- Puts a node into the text node that a path leads to, at a byte position.  The path begins at the
sibling with index `base`.  Beside the siblings this gives by how many they became more; nodes that
come in deeper do not count. -/
def insertAmong (node : Node) (position base : Nat) : List Nat → List Node → List Node × Nat
  | [], siblings => (siblings, 0)
  | [index], siblings =>
      match siblings[base + index]? with
      | some (.text content) =>
          let pieces := divide content position node
          (siblings.take (base + index) ++ pieces ++ siblings.drop (base + index + 1),
            pieces.length - 1)
      | _ => (siblings, 0)
  | index :: path, siblings =>
      (siblings.modify (base + index) fun
        | .element tag children => .element tag (insertAmong node position 0 path children).1
        | other => other, 0)

/-- Siblings into which the anchors of one unit are being put. -/
structure Spread extends Insertion where
  /-- How many of the siblings stand for the unit. -/
  span : Nat := 1

/-- The annotation of one unit in place. -/
structure Call where
  /-- The siblings. -/
  siblings : List Node
  /-- The index of the unit. -/
  start : Nat
  /-- The siblings afterwards. -/
  result : List Node
  /-- How many of them stand for the unit. -/
  span : Nat

namespace Call

/-- The unit. -/
def unit? (call : Call) : Option Node :=
  call.siblings[call.start]?

/-- The unit and the siblings behind it. -/
def pending (call : Call) : List Node :=
  call.siblings.drop call.start

end Call

/-- How far the loops have come. -/
structure Pass where
  /-- The children of the body. -/
  children : List Node
  /-- The index of the child that is looked at. -/
  index : Nat := 0
  /-- In a section, the index among its children. -/
  inner? : Option Nat := none
  /-- What is known. -/
  findings : Findings
  /-- The calls so far. -/
  calls : List Call := []

namespace Annotator

variable
  (annotator : Annotator)
  (coverage : Coverage)
  (candidates : List (SpecAssertion × Pattern))

/-- Puts a planned anchor into the nodes that stand for the unit with index `start`. -/
def putAmong (start : Nat) (spread : Spread) (planned : Planned) : Spread :=
  let nodes := (spread.nodes.drop start).take spread.span
  match (TextIndex.ofNodes annotator.anchorClass nodes).locate? planned.offset with
  | some (segment, position) =>
      let anchor := annotator.anchor coverage planned.id planned.keyword
      let (siblings, added) := insertAmong anchor position start segment.path spread.nodes
      { nodes := siblings
        divisions := spread.divisions ++ divisionAt position segment.path nodes
        span := spread.span + added }
  | none => spread

/-- Annotates the sibling with index `start`, if there is one. -/
def annotateAt? (siblings : List Node) (start : Nat) (findings : Findings) :
    Option (Call × Findings) :=
  siblings[start]?.map fun node =>
    let unit := ProseUnit.ofNode annotator.anchorClass (siblings.take start) node
    let planning := candidates.foldl (Planning.step annotator.anchorClass unit)
      { findings := findings }
    let spread := (inOrder planning.plan).foldl (annotator.putAmong coverage start)
      { nodes := siblings }
    ({ siblings := siblings, start := start, result := spread.nodes, span := spread.span },
      { planning.findings with
        divisions := planning.findings.divisions ++ spread.divisions })

/-- Goes once through the loop that is at work, or leaves the loop through a section.  Nothing comes
of it once the loop through the body is at its end. -/
def turn? (pass : Pass) : Option Pass :=
  pass.children[pass.index]?.bind fun child =>
    match pass.inner? with
    | none =>
        match annotator.section? child with
        | some _ => some { pass with inner? := some 0 }
        | none =>
            (annotator.annotateAt? coverage candidates pass.children pass.index
              pass.findings).map fun (call, findings) =>
                { pass with
                  children := call.result
                  index := pass.index + call.span
                  findings := findings
                  calls := pass.calls ++ [call] }
    | some start =>
        child.toElement?.map fun element =>
          match annotator.annotateAt? coverage candidates element.children start pass.findings with
          | some (call, findings) =>
              { pass with
                children := pass.children.set pass.index (.element element.tag call.result)
                inner? := some (start + call.span)
                findings := findings
                calls := pass.calls ++ [call] }
          | none => { pass with index := pass.index + 1, inner? := none }

/-! ### The same unit by itself -/

/-- An insertion with further siblings around its nodes. -/
def spreadAmong (before after : List Node) (insertion : Insertion) : Spread where
  nodes := before ++ (insertion.nodes ++ after)
  divisions := insertion.divisions
  span := insertion.nodes.length

theorem length_fill_divide
    (surroundings : Surroundings)
    (content : String)
    (position : Nat)
    (node : Node) :
    (surroundings.fill [.text content]).length ≤
      (surroundings.fill (divide content position node)).length := by
  cases surroundings with
  | siblings front back =>
      simp only [Surroundings.fill, divide, List.length_append, List.length_cons, List.length_nil]
      omega
  | inside front tag inner back => simp [Surroundings.fill]

/-- Inserting among siblings divides the text node that the path leads to, and counts by how many
nodes there are more. -/
theorem insertAmong_pathFrom
    (node : Node)
    (position : Nat)
    (content : String)
    (surroundings : Surroundings)
    (before after : List Node) :
    let filled := surroundings.fill (divide content position node)
    insertAmong node position before.length (surroundings.pathFrom 0)
        (before ++ (surroundings.fill [.text content] ++ after)) =
      (before ++ (filled ++ after),
        filled.length - (surroundings.fill [.text content]).length) := by
  intro filled
  induction surroundings generalizing before after with
  | siblings front back =>
      have isText :
          (before ++ (front ++ [.text content] ++ back ++ after))[before.length + front.length]? =
            some (.text content) := by
        simp
      simp only [Surroundings.pathFrom, Surroundings.fill, insertAmong, Nat.zero_add, isText,
        filled, Prod.mk.injEq]
      refine ⟨?_, ?_⟩
      · simp [Nat.add_assoc, List.take_length_add_append, List.drop_length_add_append]
      · simp only [List.length_append, List.length_singleton]
        omega
  | inside front tag inner back inductionHypothesis =>
      -- Below an element its own children are the siblings, with none before or after them.
      have deeper := inductionHypothesis [] []
      simp only [List.nil_append, List.append_nil, List.length_nil] at deeper
      rw [Surroundings.pathFrom, insertAmong.eq_3 _ _ _ _ _ _ (inner.pathFrom_ne_nil 0)]
      simp only [filled, Surroundings.fill]
      rw [List.modify_eq_take_cons_drop (by simp)]
      simp [deeper, Nat.add_assoc, List.take_length_add_append, List.drop_length_add_append]

/-- Putting an anchor among siblings changes only the nodes that stand for the unit. -/
theorem putAmong_spreadAmong
    (before after : List Node)
    (insertion : Insertion)
    (planned : Planned) :
    annotator.putAmong coverage before.length (spreadAmong before after insertion) planned =
      spreadAmong before after (annotator.put coverage insertion planned) := by
  have window :
      ((spreadAmong before after insertion).nodes.drop before.length).take
        (spreadAmong before after insertion).span = insertion.nodes := by
    simp [spreadAmong]
  simp only [putAmong, put, window]
  cases located :
      (TextIndex.ofNodes annotator.anchorClass insertion.nodes).locate? planned.offset with
  | none => rfl
  | some place =>
      obtain ⟨segment, position⟩ := place
      obtain ⟨surroundings, content, -, nodes_eq, path_eq⟩ := surroundings_of_locate? located
      let anchor := annotator.anchor coverage planned.id planned.keyword
      have longer := length_fill_divide surroundings content position anchor
      simp only [spreadAmong, nodes_eq, path_eq, insertAt_pathFrom_fill, insertAmong_pathFrom,
        Spread.mk.injEq, true_and]
      exact Nat.add_sub_of_le longer

/-- What is done in place for a unit between its siblings. -/
def callOf (before : List Node) (node : Node) (after : List Node) : Call :=
  let nodes :=
    annotator.standIns coverage candidates (ProseUnit.ofNode annotator.anchorClass before node)
  { siblings := before ++ node :: after
    start := before.length
    result := before ++ (nodes ++ after)
    span := nodes.length }

theorem fst_annotateUnit (before : List Node) (node : Node) (findings : Findings) :
    (annotator.annotateUnit coverage candidates before node findings).1 =
      annotator.standIns coverage candidates
        (ProseUnit.ofNode annotator.anchorClass before node) :=
  congrArg Prod.fst (annotator.annotateUnit_eq coverage candidates before node findings)

/-- Annotating a unit in place puts into its place what stands for it by itself. -/
theorem annotateAt?_append
    (before : List Node)
    (node : Node)
    (after : List Node)
    (findings : Findings) :
    annotator.annotateAt? coverage candidates (before ++ node :: after) before.length findings =
      some (annotator.callOf coverage candidates before node after,
        (annotator.annotateUnit coverage candidates before node findings).2) := by
  have isUnit : (before ++ node :: after)[before.length]? = some node := by simp
  have alone : ({ nodes := before ++ node :: after } : Spread) =
      spreadAmong before after { nodes := [node] } := rfl
  simp only [callOf, ← annotator.fst_annotateUnit coverage candidates before node findings,
    annotateAt?, isUnit, Option.map_some, List.take_left', alone]
  rw [List.foldl_hom (spreadAmong before after)
    (annotator.putAmong_spreadAmong coverage before after)]
  rfl

theorem annotateAt?_length (siblings : List Node) (findings : Findings) :
    annotator.annotateAt? coverage candidates siblings siblings.length findings = none := by
  simp [annotateAt?]

/-! ## The loops -/

/-- The calls for siblings, behind those that are finished. -/
def callsFrom (before : List Node) : List Node → List Call
  | [] => []
  | node :: rest =>
      let unit := ProseUnit.ofNode annotator.anchorClass before node
      annotator.callOf coverage candidates before node rest ::
        callsFrom (before ++ annotator.standIns coverage candidates unit) rest

/-- The calls for children of the body, behind those that are finished. -/
def bodyCallsFrom (before : List Node) : List Node → List Call
  | [] => []
  | child :: rest =>
      (match annotator.section? child with
        | some element => annotator.callsFrom coverage candidates [] element.children
        | none => [annotator.callOf coverage candidates before child rest]) ++
        bodyCallsFrom
          (before ++
            annotator.replaceChild (annotator.standIns coverage candidates) before child)
          rest

/-- One turn of the loops leads from the first state to the second one. -/
def TurnsInto (pass next : Pass) : Prop :=
  annotator.turn? coverage candidates pass = some next

variable {annotator} {coverage} {candidates}

/-- The loop through a section goes on with the next of its children. -/
theorem turnsInto_next
    {tag : Tag}
    {before after done rest : List Node}
    {node : Node}
    {findings : Findings}
    {calls : List Call} :
    let annotated := annotator.annotateUnit coverage candidates done node findings
    annotator.TurnsInto coverage candidates
      { children := before ++ .element tag (done ++ node :: rest) :: after
        index := before.length
        inner? := some done.length
        findings := findings
        calls := calls }
      { children := before ++ .element tag (done ++ annotated.1 ++ rest) :: after
        index := before.length
        inner? := some (done ++ annotated.1).length
        findings := annotated.2
        calls := calls ++ [annotator.callOf coverage candidates done node rest] } := by
  intro annotated
  have nodes_eq := annotator.fst_annotateUnit coverage candidates done node findings
  simp [TurnsInto, turn?, Node.toElement?, annotateAt?_append, callOf, annotated, nodes_eq]

/-- Behind its last child the loop through a section is left. -/
theorem turnsInto_behind
    {tag : Tag}
    {before after done : List Node}
    {findings : Findings}
    {calls : List Call} :
    annotator.TurnsInto coverage candidates
      { children := before ++ .element tag done :: after
        index := before.length
        inner? := some done.length
        findings := findings
        calls := calls }
      { children := before ++ .element tag done :: after
        index := before.length + 1
        inner? := none
        findings := findings
        calls := calls } := by
  simp [TurnsInto, turn?, Node.toElement?, annotateAt?_length]

/-- The loop through the children of a section comes to their end. -/
theorem reaches_section_end
    {tag : Tag}
    {before after done todo : List Node}
    {findings : Findings}
    {calls : List Call} :
    let annotated := annotator.annotateUnits coverage candidates done todo findings
    Relation.ReflTransGen (annotator.TurnsInto coverage candidates)
      { children := before ++ .element tag (done ++ todo) :: after
        index := before.length
        inner? := some done.length
        findings := findings
        calls := calls }
      { children := before ++ .element tag annotated.1 :: after
        index := before.length
        inner? := some annotated.1.length
        findings := annotated.2
        calls := calls ++ annotator.callsFrom coverage candidates done todo } := by
  -- On the children that are left: the index is always as far as the finished ones reach.
  induction todo generalizing done findings calls with
  | nil => simpa [annotateUnits, callsFrom] using Relation.ReflTransGen.refl
  | cons node rest inductionHypothesis =>
      refine .head turnsInto_next ?_
      rw [annotateUnits, callsFrom, ← annotator.fst_annotateUnit coverage candidates done node
        findings, List.append_cons calls _ (annotator.callsFrom coverage candidates _ rest)]
      exact inductionHypothesis

/-- The loop through the children of the body goes on with a child that is a unit itself. -/
theorem turnsInto_child
    {before after : List Node}
    {child : Node}
    {findings : Findings}
    {calls : List Call}
    (noSection : annotator.section? child = none) :
    let annotated := annotator.annotateUnit coverage candidates before child findings
    annotator.TurnsInto coverage candidates
      { children := before ++ child :: after
        index := before.length
        findings := findings
        calls := calls }
      { children := before ++ annotated.1 ++ after
        index := (before ++ annotated.1).length
        findings := annotated.2
        calls := calls ++ [annotator.callOf coverage candidates before child after] } := by
  intro annotated
  have nodes_eq := annotator.fst_annotateUnit coverage candidates before child findings
  simp [TurnsInto, turn?, noSection, annotateAt?_append, callOf, annotated, nodes_eq]

/-- At a section the loop through its children begins. -/
theorem turnsInto_section
    {before after : List Node}
    {element : Element}
    {findings : Findings}
    {calls : List Call}
    (isSection : annotator.section? element.toNode = some element) :
    annotator.TurnsInto coverage candidates
      { children := before ++ element.toNode :: after
        index := before.length
        findings := findings
        calls := calls }
      { children := before ++ element.toNode :: after
        index := before.length
        inner? := some 0
        findings := findings
        calls := calls } := by
  simp [TurnsInto, turn?, isSection]

/-- A section is gone through and left. -/
theorem reaches_behind_section
    {before after : List Node}
    {element : Element}
    {findings : Findings}
    {calls : List Call}
    (isSection : annotator.section? element.toNode = some element) :
    let annotated := annotator.annotateUnits coverage candidates [] element.children findings
    Relation.ReflTransGen (annotator.TurnsInto coverage candidates)
      { children := before ++ element.toNode :: after
        index := before.length
        findings := findings
        calls := calls }
      { children := before ++ [Node.element element.tag annotated.1] ++ after
        index := (before ++ [Node.element element.tag annotated.1]).length
        findings := annotated.2
        calls := calls ++ annotator.callsFrom coverage candidates [] element.children } := by
  intro annotated
  have through := @reaches_section_end annotator coverage candidates element.tag before after
    [] element.children findings calls
  rw [List.append_assoc, List.length_append]
  exact (Relation.ReflTransGen.head (turnsInto_section isSection) through).tail turnsInto_behind

/-- What stands for a section is the section with its children annotated. -/
theorem replaceChild_of_section
    {child : Node}
    {element : Element}
    (isSection : annotator.section? child = some element)
    (before : List Node)
    (findings : Findings) :
    annotator.replaceChild (annotator.standIns coverage candidates) before child =
      [.element element.tag
        (annotator.annotateUnits coverage candidates [] element.children findings).1] := by
  rw [replaceChild, isSection, annotateUnits_eq]
  rfl

theorem replaceChild_of_noSection
    {child : Node}
    (noSection : annotator.section? child = none)
    (before : List Node)
    (findings : Findings) :
    annotator.replaceChild (annotator.standIns coverage candidates) before child =
      (annotator.annotateUnit coverage candidates before child findings).1 := by
  rw [replaceChild, noSection, fst_annotateUnit]

/-- The loop through the children of the body comes to their end. -/
theorem reaches_end
    (before todo : List Node)
    {findings : Findings}
    {calls : List Call} :
    let annotated := annotator.annotateBody coverage candidates before todo findings
    Relation.ReflTransGen (annotator.TurnsInto coverage candidates)
      { children := before ++ todo
        index := before.length
        findings := findings
        calls := calls }
      { children := annotated.1
        index := annotated.1.length
        findings := annotated.2
        calls := calls ++ annotator.bodyCallsFrom coverage candidates before todo } := by
  -- As in a section, but one child may take many turns: those through its own children.
  induction todo generalizing before findings calls with
  | nil => simpa [annotateBody, bodyCallsFrom] using Relation.ReflTransGen.refl
  | cons child rest inductionHypothesis =>
      rw [annotateBody, bodyCallsFrom]
      cases isSection : annotator.section? child with
      | none =>
          rw [replaceChild_of_noSection isSection before findings, ← List.append_assoc calls]
          exact .head (turnsInto_child isSection) (inductionHypothesis _)
      | some element =>
          rw [replaceChild_of_section isSection before findings, ← List.append_assoc calls]
          obtain rfl := toNode_of_section?_eq_some isSection
          exact (reaches_behind_section isSection).trans (inductionHypothesis _)

/-! ## What the calls are for -/

variable (annotator) in
/-- The units of the children of the body in document order, each with the siblings behind it. -/
def pendingUnits : List Node → List (List Node)
  | [] => []
  | child :: rest =>
      (match annotator.section? child with
        | some element => element.children.tails.dropLast
        | none => [child :: rest]) ++
        pendingUnits rest

theorem pending_callOf (before : List Node) (node : Node) (after : List Node) :
    (annotator.callOf coverage candidates before node after).pending = node :: after :=
  List.drop_left

theorem dropLast_tails_cons (node : Node) (rest : List Node) :
    (node :: rest).tails.dropLast = (node :: rest) :: rest.tails.dropLast := by
  rw [List.tails, List.dropLast_cons_of_ne_nil]
  cases rest <;> simp

theorem map_pending_callsFrom (before nodes : List Node) :
    (annotator.callsFrom coverage candidates before nodes).map Call.pending =
      nodes.tails.dropLast := by
  induction nodes generalizing before with
  | nil => rfl
  | cons node rest inductionHypothesis =>
      rw [callsFrom, List.map_cons, pending_callOf, inductionHypothesis, dropLast_tails_cons]

/-- Every unit is called for once, with all that stands behind it. -/
theorem map_pending_bodyCallsFrom (before nodes : List Node) :
    (annotator.bodyCallsFrom coverage candidates before nodes).map Call.pending =
      annotator.pendingUnits nodes := by
  induction nodes generalizing before with
  | nil => rfl
  | cons child rest inductionHypothesis =>
      rw [bodyCallsFrom, pendingUnits, List.map_append, inductionHypothesis]
      cases annotator.section? child with
      | none => simp [pending_callOf]
      | some element => simp [map_pending_callsFrom]

theorem map_head?_dropLast_tails (nodes : List Node) :
    nodes.tails.dropLast.map List.head? = nodes.map some := by
  induction nodes with
  | nil => rfl
  | cons node rest inductionHypothesis =>
      rw [dropLast_tails_cons, List.map_cons, inductionHypothesis]
      rfl

theorem map_head?_pendingUnits (nodes : List Node) :
    (annotator.pendingUnits nodes).map List.head? =
      (nodes.flatMap annotator.unitNodes).map some := by
  induction nodes with
  | nil => rfl
  | cons child rest inductionHypothesis =>
      rw [pendingUnits, List.map_append, inductionHypothesis, List.flatMap_cons, List.map_append,
        unitNodes]
      cases annotator.section? child with
      | none => rfl
      | some element => exact congrArg (· ++ _) (map_head?_dropLast_tails element.children)

/-- The call for a unit puts what stands for the unit in its place, between the siblings. -/
theorem result_callOf (before : List Node) (node : Node) (after : List Node) :
    let call := annotator.callOf coverage candidates before node after
    ∃ nodes, nodes.length = call.span ∧
      call.result =
        call.siblings.take call.start ++ nodes ++ call.siblings.drop (call.start + 1) := by
  intro call
  refine ⟨_, rfl, ?_⟩
  simp [call, callOf, List.drop_length_add_append]

theorem exists_eq_callOf_of_mem_callsFrom
    {before nodes : List Node}
    {call : Call}
    (member : call ∈ annotator.callsFrom coverage candidates before nodes) :
    ∃ front node back, call = annotator.callOf coverage candidates front node back := by
  induction nodes generalizing before with
  | nil => cases member
  | cons node rest inductionHypothesis =>
      rcases List.mem_cons.1 member with rfl | later
      · exact ⟨before, node, rest, rfl⟩
      · exact inductionHypothesis later

theorem exists_eq_callOf_of_mem_bodyCallsFrom
    {before nodes : List Node}
    {call : Call}
    (member : call ∈ annotator.bodyCallsFrom coverage candidates before nodes) :
    ∃ front node back, call = annotator.callOf coverage candidates front node back := by
  induction nodes generalizing before with
  | nil => cases member
  | cons child rest inductionHypothesis =>
      rcases List.mem_append.1 member with here | later
      · cases isSection : annotator.section? child with
        | none =>
            simp only [isSection, List.mem_singleton] at here
            exact ⟨before, child, rest, here⟩
        | some element =>
            simp only [isSection] at here
            exact exists_eq_callOf_of_mem_callsFrom here
      · exact inductionHypothesis later

/-! ## Characters that are not divided -/

/-- Anchors that are recognized leave the later offsets of a unit between two characters. -/
theorem all_isClean_insertionFor_of_isToken
    (isToken : Text.IsToken annotator.anchorClass)
    (before : List Node)
    (node : Node) :
    let unit := ProseUnit.ofNode annotator.anchorClass before node
    (annotator.insertionFor coverage candidates unit).divisions.all Division.isClean = true := by
  intro unit
  refine (annotator.all_isClean_insertionFor coverage candidates before node).trans
    (fits_of_added_eq_nil ?_ ?_)
  · exact fun planned _ => annotator.addedText_of_isToken coverage isToken planned
  · intro planned member
    have isPlanned := (inOrder_perm _).mem_iff.1 member
    rw [ProseUnit.ofNode, TextIndex.toList_text_ofNodes]
    exact (ProseUnit.boundary_of_mem_plan isPlanned).1

theorem isClean_annotateBody_of_isToken
    (isToken : Text.IsToken annotator.anchorClass)
    (children : List Node)
    (findings : Findings) :
    (annotator.annotateBody coverage candidates [] children findings).2.isClean =
      findings.isClean := by
  rw [annotateBody_eq, noteAll, Findings.isClean, Findings.addDivisions, List.all_append,
    Findings.divisions_foldl_note, Findings.isClean, divisionsOf, List.all_flatMap]
  refine (congrArg _ (List.all_eq_true.2 fun unit isVisited => ?_)).trans (Bool.and_true _)
  obtain ⟨before, node, rfl⟩ :
      ∃ before node, unit = ProseUnit.ofNode annotator.anchorClass before node :=
    ⟨_, _, eq_ofNode_of_mem_bodyUnitsFrom isVisited⟩
  exact all_isClean_insertionFor_of_isToken isToken before node

/-! ## The run of the loops -/

/-- The loops come to an end behind the last child of the body, with the tree and the findings of
the recursive walk.  They call once for each unit, in document order; at each call the unit and all
siblings behind it are still the original ones.  A call changes no sibling of its unit.  With a
single word as the class of anchors no text node is divided inside a character. -/
theorem turns_visit_each_unit_once
    (annotator : Annotator)
    (coverage : Coverage)
    (candidates : List (SpecAssertion × Pattern))
    (children : List Node)
    (findings : Findings) :
    ∃ last : Pass,
      Relation.ReflTransGen (annotator.TurnsInto coverage candidates)
        { children := children, findings := findings } last ∧
      annotator.turn? coverage candidates last = none ∧
      last.index = last.children.length ∧
      (last.children, last.findings) =
        annotator.annotateBody coverage candidates [] children findings ∧
      last.calls.map Call.unit? = (children.flatMap annotator.unitNodes).map some ∧
      last.calls.map Call.pending = annotator.pendingUnits children ∧
      (∀ call ∈ last.calls, ∃ nodes, nodes.length = call.span ∧
        call.result =
          call.siblings.take call.start ++ nodes ++ call.siblings.drop (call.start + 1)) ∧
      (Text.IsToken annotator.anchorClass → last.findings.isClean = findings.isClean) := by
  have pending_eq :
      (annotator.bodyCallsFrom coverage candidates [] children).map Call.pending =
        annotator.pendingUnits children :=
    map_pending_bodyCallsFrom [] children
  refine ⟨_, reaches_end [] children, ?_, rfl, rfl, ?_, pending_eq, fun call isCall => ?_,
    fun isToken => isClean_annotateBody_of_isToken isToken children findings⟩
  · simp [turn?]
  · have unit_eq : Call.unit? = List.head? ∘ Call.pending := by
      funext call
      simp [Call.unit?, Call.pending]
    rw [unit_eq, ← List.map_map, List.nil_append, pending_eq, map_head?_pendingUnits]
  · obtain ⟨front, node, back, rfl⟩ := exists_eq_callOf_of_mem_bodyCallsFrom isCall
    exact result_callOf front node back

/-- A text and the paragraph of a section are visited, though an anchor divides the text in three. -/
theorem turns_visit_each_unit_once_section :
    let annotator : Annotator := {}
    let text : Node := .text "alpha beta"
    let paragraph : Node := .element ⟨"p", []⟩ [.text "beta"]
    let implementation : Node :=
      .element ⟨"div", [("class", annotator.implementationClass)]⟩ [paragraph]
    let candidates := Annotator.candidates [{ id := "first", text := "alpha<^> beta" }]
    Text.IsToken annotator.anchorClass ∧
      ∃ last : Pass,
        Relation.ReflTransGen (annotator.TurnsInto {} candidates)
          { children := [text, implementation], findings := {} } last ∧
        annotator.turn? {} candidates last = none ∧
        last.index = 4 ∧
        last.calls.map Call.unit? = [some text, some paragraph] ∧
        last.findings.isClean = true := by
  intro annotator text paragraph implementation candidates
  have isToken : Text.IsToken annotator.anchorClass := by decide
  obtain ⟨last, reached, ended, index_eq, result_eq, units_eq, -, -, clean⟩ :=
    turns_visit_each_unit_once annotator {} candidates [text, implementation] {}
  have length_eq :
      (annotator.annotateBody {} candidates [] [text, implementation] {}).1.length = 4 := by
    decide +kernel
  refine ⟨isToken, last, reached, ended, ?_, units_eq, clean isToken⟩
  rw [index_eq, ← length_eq, ← result_eq]

end Annotator

end CrossReference
end Conformance
