import Conformance.Proofs.CrossReference.Independence

/-!
# Interference between assertions

For every assertion that looks at another sibling there is a document in which another assertion
gets in its way: the sibling is a text node, and the anchor that is put at its end is counted in its
place.
-/

namespace Conformance

namespace CrossReference

open Markup
open Prose (Pattern)

/-- Some comments, which nothing is looked for in. -/
def comments (count : Nat) : List Node :=
  List.replicate count (.comment "")

/-- What stands in front of the sibling that a back-reference looks at, so that it is not met in
that sibling itself. -/
def lead (reference : BackReference) : List Node :=
  comments (if reference.expected then 1 else 0)

/-- A paragraph. -/
def paragraph (text : String) : Node :=
  .element { name := "p" } [.text text]

/-- Siblings of which the last one, a paragraph, stands as far behind a text node as a
back-reference looks. -/
def distantSiblings (reference : BackReference) (text : String) : List Node :=
  lead reference ++ .text reference.text ::
    (comments (reference.siblings - 1) ++ [paragraph text])

/-- A document with a body. -/
def documentOf (children : List Node) : Document :=
  ⟨{ name := "html" }, [.element { name := "body" } children]⟩

/-- An assertion that is accepted at the end of any text. -/
def greedy (id : String) : SpecAssertion where
  id := id ++ "+"
  text := "<...><^>"

theorem id_greedy_ne (id : String) : (greedy id).id ≠ id := by
  intro same
  have sameLength := congrArg String.length same
  simp [greedy] at sameLength

theorem ofAssertion_greedy (id : String) :
    Pattern.ofAssertion (greedy id) = .ok { tokens := [.any, .anchor] } := by
  have ofText_eq :
      Pattern.ofText none "<...><^>".toList = .ok { tokens := [.any, .anchor] } := by
    decide +kernel
  rw [Pattern.ofAssertion, Pattern.compile, greedy, ofText_eq]
  rfl

theorem anchorOffset?_greedy {text : String} (nonempty : text ≠ "") :
    Pattern.anchorOffset? { tokens := [.any, .anchor] } text =
      some (Text.byteSize text.toList) := by
  cases characters : text.toList with
  | nil => exact absurd (String.toList_injective characters) nonempty
  | cons character rest =>
      have found := Prose.anchor?_any_anchor character rest
      rw [Pattern.anchorOffset?, characters, Prose.find?_eq_anchor? (by rw [found]; rfl), found]
      rfl

/-! ## Acceptance behind a sibling -/

/-- A back-reference looks at the sibling that stands as many places before the unit. -/
theorem meets_behind
    (anchorClass : String)
    {reference : BackReference}
    {front gap : List Node}
    (distance : reference.siblings = gap.length + 1)
    (sibling node : Node) :
    (ProseUnit.ofNode anchorClass (front ++ sibling :: gap) node).Meets anchorClass reference ↔
      (reference.text.toList <:+: proseOf (marks anchorClass [sibling]) ↔
        reference.expected = true) := by
  have position :
      (front ++ sibling :: gap).length -
          min reference.siblings (front ++ sibling :: gap).length = front.length := by
    simp only [List.length_append, List.length_cons, distance]
    omega
  have textBefore_eq :
      (ProseUnit.ofNode anchorClass (front ++ sibling :: gap) node).textBefore anchorClass
        reference.siblings = proseOf (marks anchorClass [sibling]) := by
    rw [ProseUnit.textBefore, ProseUnit.ofNode, position]
    simp [proses, List.getD_eq_getElem?_getD]
  rw [ProseUnit.Meets, textBefore_eq]

theorem accepts_eq_any (anchorClass : String) (unit : ProseUnit) (assertion : SpecAssertion) :
    unit.accepts anchorClass assertion =
      (Pattern.ofAssertion assertion).toOption.any fun pattern =>
        (pattern.anchorOffset? unit.index.text).isSome && (!unit.index.segments.isEmpty &&
          assertion.previously.all fun reference => unit.Meets anchorClass reference) := by
  rw [ProseUnit.accepts, ProseUnit.acceptance?]
  cases (Pattern.ofAssertion assertion).toOption with
  | none => rfl
  | some pattern =>
      rw [Option.bind_some, Option.any_some, Option.isSome_filter]
      cases pattern.anchorOffset? unit.index.text with
      | none => rfl
      | some offset => rfl

/-- Where the text is found, acceptance is up to the back-reference. -/
theorem accepts_ofNode
    {assertion : SpecAssertion}
    {pattern : Pattern}
    {reference : BackReference}
    (compiles : Pattern.ofAssertion assertion = .ok pattern)
    (previously : assertion.previously = some reference)
    {anchorClass : String}
    {node : Node}
    (isFound :
      (pattern.anchorOffset? (TextIndex.ofNodes anchorClass [node]).text).isSome = true)
    (holdsText : (marks anchorClass [node]).any Piece.isText = true)
    (before : List Node) :
    (ProseUnit.ofNode anchorClass before node).accepts anchorClass assertion =
      decide ((ProseUnit.ofNode anchorClass before node).Meets anchorClass reference) := by
  have segments :
      (ProseUnit.ofNode anchorClass before node).index.segments.isEmpty = false := by
    rw [ProseUnit.ofNode, isEmpty_segments_ofNodes, holdsText]
    rfl
  have isFoundHere :
      (pattern.anchorOffset?
        (ProseUnit.ofNode anchorClass before node).index.text).isSome = true :=
    isFound
  rw [accepts_eq_any, compiles, previously, segments]
  simp [Except.toOption, isFoundHere]

/-- An assertion whose back-reference is not met is not accepted. -/
theorem accepts_eq_false
    {assertion : SpecAssertion}
    {reference : BackReference}
    (previously : assertion.previously = some reference)
    {anchorClass : String}
    {unit : ProseUnit}
    (unmet : ¬ unit.Meets anchorClass reference) :
    unit.accepts anchorClass assertion = false := by
  rw [accepts_eq_any, previously, Option.all_some, decide_eq_false unmet]
  simp

/-! ## The document -/

variable {annotator : Annotator}

/-- Without a section the units of the body are its children. -/
theorem bodyUnitsFrom_eq_unitsFrom
    {replace : ProseUnit → List Node}
    {nodes : List Node}
    (noSection : ∀ node ∈ nodes, annotator.section? node = none)
    (before : List Node) :
    annotator.bodyUnitsFrom replace before nodes =
      unitsFrom annotator.anchorClass replace before nodes := by
  induction nodes generalizing before with
  | nil => rfl
  | cons node rest inductionHypothesis =>
      obtain ⟨here, later⟩ := List.forall_mem_cons.1 noSection
      rw [Annotator.bodyUnitsFrom, unitsFrom, Annotator.childUnits, Annotator.replaceChild, here]
      exact congrArg _ (inductionHypothesis later _)

theorem units_distantSiblings
    (replace : ProseUnit → List Node)
    (reference : BackReference)
    (text : String) :
    annotator.units replace (documentOf (distantSiblings reference text)) =
      unitsFrom annotator.anchorClass replace [] (distantSiblings reference text) := by
  have isBody : (documentOf (distantSiblings reference text)).body? =
      some ⟨{ name := "body" }, distantSiblings reference text⟩ :=
    rfl
  rw [Annotator.units, isBody]
  apply bodyUnitsFrom_eq_unitsFrom
  intro node member
  simp only [distantSiblings, lead, comments, List.mem_append, List.mem_cons,
    List.mem_replicate] at member
  rcases member with ⟨_, rfl⟩ | rfl | ⟨_, rfl⟩ | rfl | impossible
  · rfl
  · rfl
  · rfl
  · rfl
  · cases impossible

/-- Nothing is accepted in comments. -/
theorem any_accepts_comments
    (anchorClass : String)
    (replace : ProseUnit → List Node)
    (before : List Node)
    (count : Nat)
    (assertion : SpecAssertion) :
    ((unitsFrom anchorClass replace before (comments count)).any fun unit =>
      unit.accepts anchorClass assertion) = false := by
  rw [List.any_eq_false]
  intro unit member
  have isComment : unit.node = .comment "" := by
    have isNode := List.mem_map_of_mem (f := ProseUnit.node) member
    rw [map_node_unitsFrom] at isNode
    exact List.eq_of_mem_replicate isNode
  have noText : (marks anchorClass [unit.node]).any Piece.isText = false := by
    rw [isComment]
    rfl
  rw [eq_ofNode_of_mem_unitsFrom member, ProseUnit.accepts,
    ProseUnit.acceptance?_eq_none_of_noText noText]
  simp

theorem flatMap_unitsFrom_comments
    {anchorClass : String}
    {replace : ProseUnit → List Node}
    (keepsComments : ∀ before,
      replace (ProseUnit.ofNode anchorClass before (.comment "")) = [.comment ""])
    (before : List Node)
    (count : Nat) :
    (unitsFrom anchorClass replace before (comments count)).flatMap replace = comments count := by
  induction count generalizing before with
  | zero => rfl
  | succ count inductionHypothesis =>
      rw [comments, List.replicate_succ, unitsFrom, List.flatMap_cons, keepsComments]
      exact congrArg _ (inductionHypothesis _)

/-- In the sibling itself the back-reference is not met by what stands in front of it. -/
theorem meets_lead
    (anchorClass : String)
    {reference : BackReference}
    (distant : reference.siblings ≠ 0)
    (nonempty : reference.text ≠ "") :
    ¬ (ProseUnit.ofNode anchorClass (lead reference) (.text reference.text)).Meets anchorClass
      reference := by
  have characters : reference.text.toList ≠ [] := by simpa using nonempty
  rw [ProseUnit.Meets]
  cases expected : reference.expected with
  | true =>
      have inFront :
          (ProseUnit.ofNode anchorClass (lead reference) (.text reference.text)).textBefore
            anchorClass reference.siblings = [] := by
        have lead_eq : lead reference = [.comment ""] := by
          simp [lead, expected, comments]
        have first : 1 - min reference.siblings 1 = 0 := by omega
        rw [lead_eq, ProseUnit.textBefore, ProseUnit.ofNode, List.length_singleton, first]
        simp [proses]
      rw [inFront]
      simp [characters]
  | false =>
      have itself :
          (ProseUnit.ofNode anchorClass (lead reference) (.text reference.text)).textBefore
            anchorClass reference.siblings = reference.text.toList := by
        have lead_eq : lead reference = [] := by
          simp [lead, expected, comments]
        rw [lead_eq, ProseUnit.textBefore, ProseUnit.ofNode]
        simp [proses, Piece.content]
      rw [itself]
      simp

/-- In the siblings an assertion can only be accepted in the paragraph. -/
theorem any_accepts_distantSiblings
    {anchorClass : String}
    {replace : ProseUnit → List Node}
    (keepsComments : ∀ before,
      replace (ProseUnit.ofNode anchorClass before (.comment "")) = [.comment ""])
    {assertion : SpecAssertion}
    {reference : BackReference}
    (previously : assertion.previously = some reference)
    (distant : reference.siblings ≠ 0)
    (nonempty : reference.text ≠ "")
    (text : String) :
    ((unitsFrom anchorClass replace [] (distantSiblings reference text)).any fun unit =>
        unit.accepts anchorClass assertion) =
      (ProseUnit.ofNode anchorClass
        (lead reference ++
          replace (ProseUnit.ofNode anchorClass (lead reference) (.text reference.text)) ++
          comments (reference.siblings - 1))
        (paragraph text)).accepts anchorClass assertion := by
  have textRejected :=
    accepts_eq_false previously (meets_lead anchorClass distant nonempty)
  unfold lead at textRejected ⊢
  simp only [distantSiblings, lead, unitsFrom_append, unitsFrom,
    flatMap_unitsFrom_comments keepsComments, List.any_append, any_accepts_comments, List.any_cons,
    List.any_nil, List.nil_append, Bool.or_false, Bool.false_or, textRejected]

/-! ## The paragraph -/

theorem marks_paragraph (anchorClass text : String) :
    marks anchorClass [paragraph text] = [.text [] text] := by
  have isOther : Tag.hasClass { name := "p" } anchorClass = false := by
    simp [Tag.hasClass, Tag.classes, Tag.attribute?, Text.words]
  rw [paragraph, marks_element_cons isOther]
  simp

theorem accepts_paragraph
    {assertion : SpecAssertion}
    {pattern : Pattern}
    {reference : BackReference}
    (compiles : Pattern.ofAssertion assertion = .ok pattern)
    (previously : assertion.previously = some reference)
    {fitting : List Char}
    (isMatch : (Prose.anchor? pattern.tokens fitting).isSome = true)
    (anchorClass : String)
    (before : List Node) :
    let unit := ProseUnit.ofNode anchorClass before (paragraph (String.ofList fitting))
    unit.accepts anchorClass assertion = decide (unit.Meets anchorClass reference) := by
  have text_eq :
      (TextIndex.ofNodes anchorClass [paragraph (String.ofList fitting)]).text =
        String.ofList fitting := by
    apply String.toList_injective
    simp [marks_paragraph, Piece.content]
  apply accepts_ofNode compiles previously
  · rw [text_eq, Pattern.anchorOffset?, String.toList_ofList, Prose.find?_eq_anchor? isMatch,
      Option.isSome_map, isMatch]
  · rw [marks_paragraph]
    rfl

/-! ## The sibling -/

theorem ofNodes_text (anchorClass content : String) :
    TextIndex.ofNodes anchorClass [.text content] =
      ⟨content, [⟨[0], 0, Text.byteSize content.toList⟩], []⟩ := by
  simp [TextIndex.ofNodes, TextIndex.ofPieces, piecesFrom, piecesOfNode, Piece.below,
    Piece.content, segmentsFrom, anchorsFrom]

/-- An anchor that is put at the end of a text node comes to stand behind it. -/
theorem nodes_putAll_end
    (coverage : Coverage)
    {content : String}
    (nonempty : content ≠ "")
    (id : String)
    (keyword : Keyword) :
    (annotator.putAll coverage [⟨Text.byteSize content.toList, id, keyword⟩]
        (.text content)).nodes =
      [.text content, annotator.anchor coverage id keyword] := by
  have cut := Text.cutAt_byteSize_append content.toList []
  rw [List.append_nil] at cut
  simp [Annotator.putAll, Annotator.put, ofNodes_text, TextIndex.locate?, Segment.finish, insertAt,
    divide, cut, textNode, nonempty]

/-- For the sibling an anchor of the greedy assertion is planned, and no other one. -/
theorem plan_greedy
    {assertion : SpecAssertion}
    {pattern : Pattern}
    (compiles : Pattern.ofAssertion assertion = .ok pattern)
    {anchorClass content : String}
    (nonempty : content ≠ "")
    {before : List Node}
    (rejected :
      (ProseUnit.ofNode anchorClass before (.text content)).accepts anchorClass assertion =
        false) :
    (ProseUnit.ofNode anchorClass before (.text content)).plan anchorClass
        (Annotator.candidates [greedy assertion.id, assertion]) =
      [⟨Text.byteSize content.toList, (greedy assertion.id).id, .none⟩] := by
  let unit := ProseUnit.ofNode anchorClass before (.text content)
  let taker : SpecAssertion × Pattern := (greedy assertion.id, { tokens := [.any, .anchor] })
  let rejectedOne : SpecAssertion × Pattern := (assertion, pattern)
  have accepted :
      unit.acceptedAt? anchorClass taker.1 taker.2 = some (Text.byteSize content.toList) := by
    have found := anchorOffset?_greedy nonempty
    simp only [unit, taker, ProseUnit.acceptedAt?, ProseUnit.ofNode, ofNodes_text, found,
      TextIndex.isSome_locate?]
    rfl
  have notAccepted :
      unit.acceptedAt? anchorClass rejectedOne.1 rejectedOne.2 = none := by
    rw [ProseUnit.accepts, ProseUnit.acceptance?_of_ok compiles] at rejected
    simpa using rejected
  have isFree (id : String) (offset : Nat) : unit.place [] id offset = .free := by
    simp [unit, ProseUnit.place, ProseUnit.ofNode, ofNodes_text, TextIndex.anchorAt?]
  have candidates_eq :
      Annotator.candidates [greedy assertion.id, assertion] =
        [] ++ [taker] ++ [rejectedOne] := by
    rw [Annotator.candidates_cons_of_ok (ofAssertion_greedy assertion.id),
      Annotator.candidates_cons_of_ok compiles]
    rfl
  rw [candidates_eq, ProseUnit.plan_append_of_none notAccepted,
    ProseUnit.plan_append_of_some accepted]
  have noPlan : unit.plan anchorClass [] = [] := rfl
  rw [noPlan, if_pos (isFree _ _), List.nil_append]

/-! ## The disagreement -/

/-- Among the distant siblings it is decided by what stands for the sibling whether an assertion is
accepted. -/
theorem exists_accepts_iff
    {replace : ProseUnit → List Node}
    (keepsComments : ∀ before,
      replace (ProseUnit.ofNode annotator.anchorClass before (.comment "")) = [.comment ""])
    {assertion : SpecAssertion}
    {pattern : Pattern}
    {reference : BackReference}
    (compiles : Pattern.ofAssertion assertion = .ok pattern)
    (previously : assertion.previously = some reference)
    (distant : reference.siblings ≠ 0)
    (nonempty : reference.text ≠ "")
    {fitting : List Char}
    (isMatch : (Prose.anchor? pattern.tokens fitting).isSome = true)
    {front : List Node}
    {last : Node}
    (replaced :
      replace (ProseUnit.ofNode annotator.anchorClass (lead reference) (.text reference.text)) =
        front ++ [last]) :
    (∃ unit ∈ annotator.units replace
        (documentOf (distantSiblings reference (String.ofList fitting))),
      unit.accepts annotator.anchorClass assertion = true) ↔
      (reference.text.toList <:+: proseOf (marks annotator.anchorClass [last]) ↔
        reference.expected = true) := by
  have distance : reference.siblings = (comments (reference.siblings - 1)).length + 1 := by
    rw [comments, List.length_replicate]
    omega
  have siblings_eq :
      lead reference ++ (front ++ [last]) ++ comments (reference.siblings - 1) =
        (lead reference ++ front) ++ last :: comments (reference.siblings - 1) := by
    simp
  rw [units_distantSiblings, ← List.any_eq_true,
    any_accepts_distantSiblings keepsComments previously distant nonempty, replaced, siblings_eq,
    accepts_paragraph compiles previously isMatch, decide_eq_true_iff, meets_behind _ distance]

/-- An assertion that looks at another sibling is disturbed by another assertion in some
document. -/
theorem exists_disagreement
    (isToken : Text.IsToken annotator.anchorClass)
    {assertion : SpecAssertion}
    (looks : ¬ LooksAtNoSibling assertion) :
    ∃ (document : Document) (other : SpecAssertion), other.id ≠ assertion.id ∧
      ¬ ((annotator.annotate document [other, assertion] {}).2.isMatched assertion.id = true ↔
        (annotator.annotate document [assertion] {}).2.isMatched assertion.id = true) := by
  simp only [LooksAtNoSibling, not_forall, not_or] at looks
  obtain ⟨pattern, compiles, reference, previously, distant, nonempty⟩ := looks
  obtain ⟨fitting, isMatch⟩ := Prose.exists_isSome_anchor? pattern.tokens
  let document := documentOf (distantSiblings reference (String.ofList fitting))
  let other := greedy assertion.id
  refine ⟨document, other, id_greedy_ne assertion.id, ?_⟩
  have unique : ∀ another ∈ [other] ++ [], another.id ≠ assertion.id := by
    simpa using id_greedy_ne assertion.id
  let standIns := annotator.standIns {} (Annotator.candidates [other, assertion])
  let sibling := ProseUnit.ofNode annotator.anchorClass (lead reference) (.text reference.text)
  have rejected : sibling.accepts annotator.anchorClass assertion = false :=
    accepts_eq_false previously (meets_lead annotator.anchorClass distant nonempty)
  have divided :
      standIns sibling =
        [.text reference.text] ++ [annotator.anchor {} other.id .none] := by
    have plan_eq := plan_greedy compiles nonempty rejected
    simp only [standIns, Annotator.standIns, Annotator.insertionFor]
    rw [plan_eq]
    exact nodes_putAll_end {} nonempty other.id .none
  have keepsComments (before : List Node) :
      standIns (ProseUnit.ofNode annotator.anchorClass before (.comment "")) = [.comment ""] := by
    have noText : (marks annotator.anchorClass [.comment ""]).any Piece.isText = false := rfl
    exact Annotator.standIns_eq_kept {} (ProseUnit.isSettled_of_noText _ noText before)
  have among := exists_accepts_iff keepsComments compiles previously distant nonempty isMatch
    divided
  have alone :
      (∃ unit ∈ annotator.units ProseUnit.kept document,
        unit.accepts annotator.anchorClass assertion = true) ↔
        (reference.text.toList <:+:
            proseOf (marks annotator.anchorClass [.text reference.text]) ↔
          reference.expected = true) :=
    exists_accepts_iff (fun _ => rfl) compiles previously distant nonempty isMatch
      (List.nil_append _).symm
  have found := annotator.isMatched_annotate_iff document unique {}
  have notInEmpty : ¬ reference.text.toList <:+: [] := by simpa using nonempty
  rw [annotator.marks_anchor isToken, proseOf_cons, proseOf_nil, List.append_nil, Piece.content,
    String.toList_empty, iff_false_left notInEmpty] at among
  rw [marks_text_cons, marks_nil, proseOf_cons, proseOf_nil, List.append_nil, Piece.content,
    iff_true_left List.infix_rfl] at alone
  intro agree
  rw [annotator.isMatched_alone_iff, alone] at agree
  have impossible := (found.symm.trans agree).symm.trans among
  cases reference.expected <;> simp at impossible

namespace Annotator

/-- An assertion is found among others exactly if it is found alone, in all documents, just in case
that it looks at no other sibling.  In one document it is so if no text node is divided; and in any
case it comes down to acceptance in the units as they are visited and as they stand. -/
theorem annotate_independent_iff
    (annotator : Annotator)
    (isToken : Text.IsToken annotator.anchorClass)
    (assertion : SpecAssertion) :
    let IsUniqueAmong (others : List SpecAssertion) : Prop :=
      ∀ other ∈ others, other.id ≠ assertion.id
    let Agree (document : Document) (coverage : Coverage)
        (earlier later : List SpecAssertion) : Prop :=
      (annotator.annotate document (earlier ++ assertion :: later) coverage).2.isMatched
          assertion.id = true ↔
        (annotator.annotate document [assertion] coverage).2.isMatched assertion.id = true
    ((∀ document coverage earlier later, IsUniqueAmong (earlier ++ later) →
        Agree document coverage earlier later) ↔
      LooksAtNoSibling assertion) ∧
      ∀ document coverage earlier later, IsUniqueAmong (earlier ++ later) →
        let visits := annotator.visits coverage document (earlier ++ assertion :: later)
        ((∀ unit ∈ visits, isTextNode unit.node = true →
            unit.IsSettled annotator.anchorClass (earlier ++ assertion :: later)) →
          Agree document coverage earlier later) ∧
        (Agree document coverage earlier later ↔
          ((∃ unit ∈ visits, unit.accepts annotator.anchorClass assertion = true) ↔
            ∃ unit ∈ annotator.units ProseUnit.kept document,
              unit.accepts annotator.anchorClass assertion = true)) := by
  intro IsUniqueAmong Agree
  refine ⟨⟨?_, ?_⟩, ?_⟩
  · intro independent
    apply Classical.byContradiction
    intro looks
    obtain ⟨document, other, different, disagree⟩ := exists_disagreement isToken looks
    have unique : IsUniqueAmong ([other] ++ []) := by
      simpa [IsUniqueAmong] using different
    exact disagree (independent document {} [other] [] unique)
  · intro blind document coverage earlier later unique
    exact annotator.isMatched_iff_of_looksAtNoSibling document unique coverage blind
  · intro document coverage earlier later unique visits
    refine ⟨annotator.isMatched_iff_of_undivided isToken document unique coverage, ?_⟩
    simp only [Agree, annotator.isMatched_annotate_iff document unique,
      annotator.isMatched_alone_iff]
    rfl

/-- An assertion without a back-reference is found beside another one. -/
theorem annotate_independent_iff_pair :
    let annotator : Annotator := {}
    let document : Document := documentOf [.text "alpha beta", paragraph "target"]
    let assertion : SpecAssertion := { id := "a", text := "target<^>" }
    let other : SpecAssertion := { id := "b", text := "alpha<^> beta" }
    Text.IsToken annotator.anchorClass ∧
      (∀ another ∈ [other] ++ [], another.id ≠ assertion.id) ∧
      ((annotator.annotate document [other, assertion] {}).2.isMatched "a" = true ↔
        (annotator.annotate document [assertion] {}).2.isMatched "a" = true) := by
  intro annotator document assertion other
  have isToken : Text.IsToken annotator.anchorClass := by decide
  have unique : ∀ another ∈ [other] ++ [], another.id ≠ assertion.id := by decide
  have blind : LooksAtNoSibling assertion := by
    intro pattern _ reference previously
    cases previously
  exact ⟨isToken, unique,
    (annotate_independent_iff annotator isToken assertion).1.2 blind document {} [other] [] unique⟩

/-- An anchor for one assertion makes another one look at the wrong sibling. -/
theorem annotate_not_independent :
    ¬ ∀ (annotator : Annotator) (document : Document) (coverage : Coverage)
        (earlier later : List SpecAssertion) (assertion : SpecAssertion),
      Text.IsToken annotator.anchorClass →
      (∀ other ∈ earlier ++ later, other.id ≠ assertion.id) →
      ((annotator.annotate document (earlier ++ assertion :: later) coverage).2.isMatched
          assertion.id = true ↔
        (annotator.annotate document [assertion] coverage).2.isMatched assertion.id = true) := by
  intro claimed
  let document : Document :=
    documentOf [.text "alpha beta", paragraph "gamma", paragraph "target"]
  let assertion : SpecAssertion :=
    { id := "a", text := "target<^>", previously := some { siblings := 2, text := "alpha" } }
  let other : SpecAssertion := { id := "b", text := "alpha<^> beta" }
  have agree := claimed {} document {} [other] [] assertion (by decide) (by decide)
  revert agree
  decide +kernel

end Annotator

end CrossReference
end Conformance
