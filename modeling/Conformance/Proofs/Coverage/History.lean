import Conformance.Proofs.Coverage
import Conformance.Proofs.CrossReference.Outcomes
import Conformance.Proofs.CrossReference.Uniqueness
import Mathlib.Data.Set.Card

/-!
# Histories of claims

What is known about claims comes from a history of changes.  Some changes start over: the claims
are gathered from a list of tests, or a written record is read.  What is listed for an assertion is
what the last of those changes lists for it, and behind that the names that the later changes add.

A list of tests lists no assertion without a test, but a record may.  Such an assertion counts as
claimed, although no test claims it, until the first later claim.
-/

namespace Conformance

namespace NameMap

variable {Item : Type}

/-- Of several entries for a name the last one counts. -/
theorem get?_ofList (entries : List (String × Item)) (name : String) :
    (ofList entries).get? name = entries.reverse.lookup name := by
  induction entries using List.reverseRecOn with
  | nil => rfl
  | append_singleton entries entry inductionHypothesis =>
      obtain ⟨key, value⟩ := entry
      have last : ofList (entries ++ [(key, value)]) = (ofList entries).insert key value := by
        simp [ofList]
      rw [last, get?_insert, inductionHypothesis, List.reverse_append]
      by_cases same : name = key <;> simp [List.lookup_cons, same, beq_eq_false_iff_ne.2]

/-- The size counts the names that have a value. -/
theorem size_eq_ncard (map : NameMap Item) :
    map.size = {name | map.contains name = true}.ncard := by
  have names : {name | map.contains name = true} = map.names.toFinset := by
    ext name
    simp [mem_names_iff, contains]
  rw [names, Set.ncard_coe_finset, List.toFinset_card_of_nodup (l := map.names) map.nodup_names, size,
    NameMap.names, List.length_map]

end NameMap

namespace Coverage

open CrossReference (Annotator)

/-- The entries of a written record. -/
def entries? (value : Value) : Option (List (String × List String)) :=
  (Record.ofValue? ["claims"] value).bind fun record =>
    record.required "claims" (Value.toEntries? Value.toTexts?)

theorem ofValue?_eq (value : Value) :
    ofValue? value = (entries? value).map fun entries => { claims := .ofList entries } := by
  cases fields : Record.ofValue? ["claims"] value <;>
    simp [ofValue?, entries?, fields, Option.map_eq_bind]

/-- A way in which the known claims come to change. -/
inductive Change where
  /-- A test claims an assertion. -/
  | claim (assertion test : String)
  /-- A test makes all its claims. -/
  | record (test : TestCase)
  /-- The claims of some tests take the place of what was known. -/
  | gather (tests : List TestCase)
  /-- A written record takes the place of what was known. -/
  | load (written : Value)

namespace Change

/-- The claims that are known after a change, unless a record is malformed. -/
def apply : Change → Coverage → Option Coverage
  | .claim assertion test, coverage => some (coverage.claim assertion test)
  | .record test, coverage => some (coverage.record test)
  | .gather tests, _ => some (ofTests tests)
  | .load written, _ => ofValue? written

/-- Whether what was known before is forgotten. -/
def startsOver : Change → Bool
  | .claim .. | .record _ => false
  | .gather _ | .load _ => true

/-- What a change that starts over lists for an assertion, if it lists the assertion. -/
def listing : Change → String → Option (List String)
  | .claim .., _ | .record _, _ => none
  | .gather tests, id => extended none (claimants tests id)
  | .load written, id => (entries? written).bind fun entries => entries.reverse.lookup id

/-- The names that a change adds for an assertion. -/
def added : Change → String → List String
  | .claim assertion test, id => if assertion = id then [test] else []
  | .record test, id => claimants [test] id
  | .gather _, _ | .load _, _ => []

/-- What a change lists for an assertion, by what was listed before. -/
theorem get?_apply
    {change : Change}
    {coverage next : Coverage}
    (applies : change.apply coverage = some next)
    (id : String) :
    next.claims.get? id =
      if change.startsOver then change.listing id
      else extended (coverage.claims.get? id) (change.added id) := by
  cases change with
  | claim assertion test =>
      obtain rfl := Option.some.inj applies
      exact get?_claim coverage assertion test id
  | record test =>
      obtain rfl := Option.some.inj applies
      exact get?_foldl_record coverage [test] id
  | gather tests =>
      obtain rfl := Option.some.inj applies
      exact get?_foldl_record {} tests id
  | load written =>
      rw [apply, ofValue?_eq] at applies
      obtain ⟨entries, isEntries, rfl⟩ := Option.map_eq_some_iff.1 applies
      simp [startsOver, listing, isEntries, NameMap.get?_ofList]

end Change

/-- The claims that are known after some changes, if no record among them is malformed.  At first
none are known. -/
def run (changes : List Change) : Option Coverage :=
  changes.foldlM (fun coverage change => change.apply coverage) {}

/-- The last change of a history that starts over, and the changes behind it.  A history begins
without tests. -/
structure LastStart (changes : List Change) (start : Change) (later : List Change) : Prop where
  isSuffix : start :: later <:+ .gather [] :: changes
  startsOver : start.startsOver = true
  goesOn : ∀ change ∈ later, change.startsOver = false

/-- One more change either starts over or is the last one behind the same start. -/
theorem LastStart.append_singleton
    {changes later : List Change}
    {start : Change}
    (last : LastStart changes start later)
    (change : Change) :
    if change.startsOver then LastStart (changes ++ [change]) change []
    else LastStart (changes ++ [change]) start (later ++ [change]) := by
  split
  next startsOver => exact ⟨⟨.gather [] :: changes, rfl⟩, startsOver, by simp⟩
  next goes =>
    refine ⟨?_, last.startsOver, ?_⟩
    · obtain ⟨earlier, whole⟩ := last.isSuffix
      exact ⟨earlier, by rw [← List.cons_append, ← List.append_assoc, whole, List.cons_append]⟩
    · intro other isLater
      rcases List.mem_append.1 isLater with isEarlier | isLast
      · exact last.goesOn other isEarlier
      · rwa [List.mem_singleton.1 isLast, ← Bool.not_eq_true]

/-- What is listed after a history is what its last start lists, and behind that what was added
later. -/
theorem get?_run
    {changes : List Change}
    {coverage : Coverage}
    (runs : run changes = some coverage) :
    ∃ start later,
      LastStart changes start later ∧
      ∀ id, coverage.claims.get? id =
        extended (start.listing id) (later.flatMap fun change => change.added id) := by
  induction changes using List.reverseRecOn generalizing coverage with
  | nil =>
      obtain rfl := Option.some.inj runs
      exact ⟨.gather [], [], ⟨List.suffix_rfl, rfl, by simp⟩, fun id => rfl⟩
  | append_singleton changes change inductionHypothesis =>
      rw [run, List.foldlM_append, ← run, Option.bind_eq_bind, Option.bind_eq_some_iff] at runs
      obtain ⟨before, runsBefore, applies⟩ := runs
      have applied : change.apply before = some coverage := by simpa using applies
      obtain ⟨start, later, last, listed⟩ := inductionHypothesis runsBefore
      have next := last.append_singleton change
      by_cases startsOver : change.startsOver = true
      · refine ⟨change, [], by simpa [startsOver] using next, fun id => ?_⟩
        rw [change.get?_apply applied, if_pos startsOver]
        rfl
      · refine ⟨start, later ++ [change], by simpa [startsOver] using next, fun id => ?_⟩
        rw [change.get?_apply applied, if_neg startsOver, listed, ← extended_append,
          List.flatMap_append, List.flatMap_singleton]

/-- An assertion is listed with its tests, or without any. -/
theorem isClaimed_iff_testsFor (coverage : Coverage) (id : String) :
    coverage.isClaimed id = true ↔
      coverage.testsFor id ≠ [] ∨ coverage.claims.get? id = some [] := by
  rw [isClaimed, NameMap.contains, testsFor]
  cases coverage.claims.get? id with
  | none => simp
  | some tests => simpa using (em (tests = [])).symm

theorem finite_isClaimed (coverage : Coverage) : {id | coverage.isClaimed id = true}.Finite := by
  refine coverage.claims.names.finite_toSet.subset fun id isListed => ?_
  exact (NameMap.mem_names_iff coverage.claims id).2 isListed

/-- An assertion is noted as unclaimed if it is not listed. -/
theorem mem_unclaimed_annotate_iff
    (annotator : Annotator)
    (document : Markup.Document)
    {assertions : List SpecAssertion}
    {assertion : SpecAssertion}
    (declared : assertion ∈ assertions)
    (coverage : Coverage) :
    assertion.id ∈ (annotator.annotate document assertions coverage).2.unclaimed ↔
      ¬ coverage.isClaimed assertion.id = true := by
  rw [Annotator.unclaimed_annotate, List.mem_filter,
    and_iff_right (List.mem_map_of_mem declared), Bool.not_eq_true', Bool.not_eq_true]

/-- The anchor of an assertion links to no tests if there are none. -/
theorem linkedTests_anchor_eq_nil_iff
    (annotator : Annotator)
    (coverage : Coverage)
    (id : String)
    (keyword : Keyword) :
    (annotator.anchor coverage id keyword).toElement?.map Annotator.linkedTests = some [] ↔
      coverage.testsFor id = [] := by
  obtain ⟨anchor, isElement, isAnchor⟩ :
      ∃ anchor, (annotator.anchor coverage id keyword).toElement? = some anchor ∧
        anchor.toNode = annotator.anchor coverage id keyword := ⟨_, rfl, rfl⟩
  rw [isElement, Option.map_some, Annotator.linkedTests_eq isAnchor, Option.some_inj]

/-- The start of a history lists an assertion without tests, and nothing claims it later. -/
def IsBare (start : Change) (later : List Change) (id : String) : Prop :=
  start.listing id = some [] ∧ ∀ change ∈ later, change.added id = []

/-- A bare assertion is listed without tests. -/
theorem isBare_iff (start : Change) (later : List Change) (id : String) :
    IsBare start later id ↔
      extended (start.listing id) (later.flatMap fun change => change.added id) = some [] := by
  rw [IsBare, ← List.flatMap_eq_nil_iff]
  cases later.flatMap fun change => change.added id <;> simp [extended]

/-- No list of tests leaves an assertion bare. -/
theorem IsBare.isLoad
    {start : Change}
    {later : List Change}
    {id : String}
    (bare : IsBare start later id) :
    ∃ written, start = .load written := by
  cases start with
  | claim assertion test => exact absurd bare.1 (by simp [Change.listing])
  | record test => exact absurd bare.1 (by simp [Change.listing])
  | gather tests =>
      have listed : extended none (claimants tests id) = some [] := bare.1
      cases names : claimants tests id <;> simp [names, extended] at listed
  | load written => exact ⟨written, rfl⟩

/-- What is known about claims accords with the last start and the changes behind it. -/
structure AccordsWith (coverage : Coverage) (start : Change) (later : List Change) : Prop where
  /-- The tests of an assertion are those that the start lists and those that were added later. -/
  testsFor_eq (id : String) :
    coverage.testsFor id =
      (start.listing id).getD [] ++ later.flatMap fun change => change.added id
  /-- An assertion counts as claimed if it has tests, or if it is bare. -/
  isClaimed_iff (id : String) :
    coverage.isClaimed id = true ↔ coverage.testsFor id ≠ [] ∨ IsBare start later id
  testsFor_bare (id : String) (bare : IsBare start later id) : coverage.testsFor id = []
  /-- Only the reading of a record leaves an assertion bare. -/
  isLoad_of_bare (id : String) (bare : IsBare start later id) : ∃ written, start = .load written
  /-- The size counts the assertions with tests, and the bare ones. -/
  size_eq :
    coverage.size =
      {id | coverage.testsFor id ≠ []}.ncard + {id | IsBare start later id}.ncard
  finite_bare : {id | IsBare start later id}.Finite
  /-- An assertion is noted as unclaimed if its anchor links to no tests and it is not bare. -/
  mem_unclaimed_iff
    (annotator : Annotator)
    (document : Markup.Document)
    (assertions : List SpecAssertion)
    (assertion : SpecAssertion)
    (declared : assertion ∈ assertions)
    (keyword : Keyword) :
    assertion.id ∈ (annotator.annotate document assertions coverage).2.unclaimed ↔
      (annotator.anchor coverage assertion.id keyword).toElement?.map Annotator.linkedTests =
          some [] ∧
        ¬ IsBare start later assertion.id

/-- After every history the tests of an assertion are those that its last start lists for it and
those that were added later, and the assertions that count as claimed are those with tests, except
for the ones that a record lists without tests. -/
theorem run_accordsWith
    {changes : List Change}
    {coverage : Coverage}
    (runs : run changes = some coverage) :
    ∃ start later, LastStart changes start later ∧ coverage.AccordsWith start later := by
  obtain ⟨start, later, last, listed⟩ := get?_run runs
  have testsFor_eq (id : String) :
      coverage.testsFor id =
        (start.listing id).getD [] ++ later.flatMap fun change => change.added id := by
    rw [testsFor, listed, getD_extended]
  have bare_iff (id : String) :
      IsBare start later id ↔ coverage.claims.get? id = some [] := by
    rw [isBare_iff, listed]
  have isClaimed_iff (id : String) :
      coverage.isClaimed id = true ↔ coverage.testsFor id ≠ [] ∨ IsBare start later id := by
    rw [bare_iff, isClaimed_iff_testsFor]
  have testsFor_bare (id : String) (bare : IsBare start later id) :
      coverage.testsFor id = [] := by
    rw [testsFor, (bare_iff id).1 bare, Option.getD_some]
  have claimed_eq :
      {id | coverage.isClaimed id = true} =
        {id | coverage.testsFor id ≠ []} ∪ {id | IsBare start later id} :=
    Set.ext isClaimed_iff
  have finite := claimed_eq ▸ coverage.finite_isClaimed
  obtain ⟨finite_tests, finite_bare⟩ := Set.finite_union.1 finite
  have disjoint :
      Disjoint {id | coverage.testsFor id ≠ []} {id | IsBare start later id} :=
    Set.disjoint_left.2 fun id tests bare => tests (testsFor_bare id bare)
  refine ⟨start, later, last, testsFor_eq, isClaimed_iff, testsFor_bare,
    fun id bare => bare.isLoad, ?_, finite_bare, ?_⟩
  · rw [size, NameMap.size_eq_ncard]
    exact (congrArg Set.ncard claimed_eq).trans
      (Set.ncard_union_eq disjoint finite_tests finite_bare)
  · intro annotator document assertions assertion declared keyword
    rw [mem_unclaimed_annotate_iff annotator document declared, isClaimed_iff, not_or, not_not,
      linkedTests_anchor_eq_nil_iff]

/-- A claim is listed behind the tests that a record lists. -/
theorem run_accordsWith_draw :
    let written : Value :=
      .table [("claims", .table [("clear", .array []), ("draw", .array [.string "lines"])])]
    let changes : List Change := [.load written, .claim "draw" "curves"]
    ∃ coverage,
      run changes = some coverage ∧
      coverage.testsFor "draw" = ["lines", "curves"] ∧
      ∃ start later, LastStart changes start later ∧ coverage.AccordsWith start later := by
  intro written changes
  have runs : run changes = some (claim { claims := .ofList [("clear", []), ("draw", ["lines"])] }
      "draw" "curves") := rfl
  exact ⟨_, runs, rfl, run_accordsWith runs⟩

/-- An assertion that a record lists without tests counts as claimed: it is counted, and it is not
noted as unclaimed, although no test claims it and its anchor links to none. -/
theorem isClaimed_run_bare :
    let written : Value := .table [("claims", .table [("clear", .array [])])]
    let annotator : Annotator := {}
    let document : Markup.Document := ⟨{ name := "html" }, []⟩
    let assertion : SpecAssertion := { id := "clear", text := "clear<^>" }
    ∃ coverage,
      run [.load written] = some coverage ∧
      (∀ id, coverage.testsFor id = []) ∧
      coverage.isClaimed "clear" = true ∧
      coverage.size = 1 ∧
      (annotator.annotate document [assertion] coverage).2.unclaimed = [] ∧
      (annotator.anchor coverage "clear" .none).toElement?.map Annotator.linkedTests = some [] := by
  intro written annotator document assertion
  have runs : run [.load written] = some { claims := .ofList [("clear", [])] } := rfl
  have testsFor_eq (id : String) :
      ({ claims := .ofList [("clear", [])] } : Coverage).testsFor id = [] := by
    by_cases same : id = "clear" <;>
      simp [testsFor, NameMap.get?_ofList, List.lookup_cons, same, beq_eq_false_iff_ne.2]
  refine ⟨_, runs, testsFor_eq, by decide, by decide, ?_, ?_⟩
  · rw [Annotator.unclaimed_annotate]
    decide
  · rw [linkedTests_anchor_eq_nil_iff, testsFor_eq]

end Coverage

end Conformance
