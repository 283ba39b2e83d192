import Conformance.CrossReference.Annotator
import Conformance.Proofs.CrossReference.Sightings

/-!
# Accounting for assertions

What is known about an assertion after a walk depends on nothing but the places at which it was
sighted, in their order.  Noting one more sighting keeps this, and so does a whole run; the review
that follows only completes it for assertions that were not sighted.
-/

namespace Conformance

namespace NameMap

variable {Item : Type}

theorem get?_insert (map : NameMap Item) (name other : String) (value : Item) :
    (map.insert name value).get? other = if other = name then some value else map.get? other :=
  get?_update map name other fun _ => value

/-- The names are those that have a value. -/
theorem mem_names_iff (map : NameMap Item) (name : String) :
    name ∈ map.names ↔ (map.get? name).isSome = true := by
  unfold names get?
  induction map.entries with
  | nil => simp
  | cons entry entries inductionHypothesis =>
      obtain ⟨key, value⟩ := entry
      by_cases same : name = key
      · simp [same]
      · simp [List.lookup_cons, same, inductionHypothesis, beq_eq_false_iff_ne.2]

end NameMap

namespace CrossReference

open Prose (Pattern)

/-- The places at which an assertion was sighted, in the order of the sightings. -/
def placesOf (id : String) (sightings : List Sighting) : List Place :=
  (sightings.filter fun sighting => sighting.id == id).map Sighting.place

@[simp]
theorem placesOf_nil (id : String) : placesOf id [] = [] :=
  rfl

@[simp]
theorem placesOf_append (id : String) (earlier later : List Sighting) :
    placesOf id (earlier ++ later) = placesOf id earlier ++ placesOf id later := by
  simp [placesOf]

theorem placesOf_singleton_same (sighting : Sighting) :
    placesOf sighting.id [sighting] = [sighting.place] := by
  simp [placesOf]

theorem placesOf_singleton_other
    {id : String}
    {sighting : Sighting}
    (different : sighting.id ≠ id) :
    placesOf id [sighting] = [] := by
  simp [placesOf, different]

/-- What becomes of an assertion that is sighted at some places. -/
def outcomeOf : List Place → Option Outcome
  | [] => none
  | [place] => some (if place = .free then .annotated else .located)
  | _ :: _ :: _ => some .matchedMultiple

theorem isSome_outcomeOf (places : List Place) :
    (outcomeOf places).isSome = !places.isEmpty := by
  rcases places with _ | ⟨first, _ | ⟨second, rest⟩⟩ <;> rfl

theorem outcomeOf_append_singleton (places : List Place) (place : Place) :
    outcomeOf (places ++ [place]) =
      some (if (outcomeOf places).isSome then .matchedMultiple
        else if place = .free then .annotated else .located) := by
  rcases places with _ | ⟨first, _ | ⟨second, rest⟩⟩ <;> rfl

/-- What is known about an assertion accords with its sightings. -/
structure Findings.Accounts
    (findings : Findings)
    (sightings : List Sighting)
    (id : String) :
    Prop where
  outcome_eq : findings.outcome? id = outcomeOf (placesOf id sightings)
  /-- Every sighting after the first one is warned of. -/
  count_again :
    findings.warnings.count (.matchedMultiple id none) = (placesOf id sightings).length - 1
  /-- Every sighting at the place of another assertion is warned of. -/
  count_conflict (owner : String) :
    findings.warnings.count (.matchedMultiple id (some owner)) =
      (placesOf id sightings).count (.taken (some owner))
  count_unmatched : findings.warnings.count (.unmatched id) = 0

namespace Findings

/-- The warnings that one more sighting gives rise to. -/
def warningsOf (seen : Bool) (sighting : Sighting) : List Warning :=
  (if seen then [.matchedMultiple sighting.id none] else []) ++
    match sighting.place with
    | .taken (some owner) => [.matchedMultiple sighting.id (some owner)]
    | _ => []

theorem warnings_note (findings : Findings) (sighting : Sighting) :
    (findings.note sighting).warnings =
      findings.warnings ++ warningsOf (findings.outcome? sighting.id).isSome sighting := by
  rw [warningsOf, ← List.append_assoc]
  rfl

theorem outcome?_note (findings : Findings) (sighting : Sighting) (id : String) :
    (findings.note sighting).outcome? id =
      if id = sighting.id then
        some (if (findings.outcome? sighting.id).isSome then .matchedMultiple
          else if sighting.place = .free then .annotated else .located)
      else findings.outcome? id :=
  findings.outcomes.get?_insert _ _ _

/-- One more sighting warns of nothing but further matches of its assertion. -/
theorem exists_eq_of_mem_warningsOf
    {seen : Bool}
    {sighting : Sighting}
    {warning : Warning}
    (member : warning ∈ warningsOf seen sighting) :
    ∃ conflictingWith, warning = .matchedMultiple sighting.id conflictingWith := by
  rw [warningsOf, List.mem_append] at member
  rcases member with again | conflict
  · cases seen with
    | false => cases again
    | true => exact ⟨none, List.mem_singleton.1 again⟩
  · split at conflict
    · exact ⟨some _, List.mem_singleton.1 conflict⟩
    · cases conflict

theorem count_warningsOf_other
    {sighting : Sighting}
    {id : String}
    (different : sighting.id ≠ id)
    (seen : Bool)
    (conflictingWith : Option String) :
    (warningsOf seen sighting).count (.matchedMultiple id conflictingWith) = 0 := by
  rw [List.count_eq_zero]
  intro member
  obtain ⟨_, warning_eq⟩ := exists_eq_of_mem_warningsOf member
  exact different (Warning.matchedMultiple.inj warning_eq).1.symm

theorem count_warningsOf_unmatched (seen : Bool) (sighting : Sighting) (id : String) :
    (warningsOf seen sighting).count (.unmatched id) = 0 := by
  rw [List.count_eq_zero]
  intro member
  obtain ⟨_, warning_eq⟩ := exists_eq_of_mem_warningsOf member
  cases warning_eq

theorem count_warningsOf_none (seen : Bool) (sighting : Sighting) :
    (warningsOf seen sighting).count (.matchedMultiple sighting.id none) =
      if seen then 1 else 0 := by
  cases seen <;> cases place : sighting.place with
  | taken owner => cases owner <;> simp [warningsOf, place]
  | _ => simp [warningsOf, place]

theorem count_warningsOf_some (seen : Bool) (sighting : Sighting) (owner : String) :
    (warningsOf seen sighting).count (.matchedMultiple sighting.id (some owner)) =
      [sighting.place].count (.taken (some owner)) := by
  cases seen <;> cases place : sighting.place with
  | taken found => cases found <;> simp [warningsOf, place, List.count_cons]
  | _ => simp [warningsOf, place]

/-- One more sighting is accounted for. -/
theorem Accounts.note
    {findings : Findings}
    {sightings : List Sighting}
    {id : String}
    (accounts : findings.Accounts sightings id)
    (sighting : Sighting) :
    (findings.note sighting).Accounts (sightings ++ [sighting]) id := by
  by_cases same : sighting.id = id
  · subst same
    have seen_eq := accounts.outcome_eq
    refine ⟨?_, ?_, ?_, ?_⟩
    · rw [outcome?_note, if_pos rfl, seen_eq, placesOf_append, placesOf_singleton_same,
        outcomeOf_append_singleton]
    · rw [warnings_note, List.count_append, count_warningsOf_none, accounts.count_again, seen_eq,
        isSome_outcomeOf, placesOf_append, placesOf_singleton_same, List.length_append]
      cases placesOf sighting.id sightings <;> simp
    · intro owner
      rw [warnings_note, List.count_append, count_warningsOf_some, accounts.count_conflict,
        placesOf_append, placesOf_singleton_same, List.count_append]
    · rw [warnings_note, List.count_append, count_warningsOf_unmatched, accounts.count_unmatched]
  · have samePlaces : placesOf id (sightings ++ [sighting]) = placesOf id sightings := by
      rw [placesOf_append, placesOf_singleton_other same, List.append_nil]
    refine ⟨?_, ?_, ?_, ?_⟩
    · rw [outcome?_note, if_neg (Ne.symm same), samePlaces, accounts.outcome_eq]
    · rw [warnings_note, List.count_append, count_warningsOf_other same, samePlaces,
        accounts.count_again, Nat.add_zero]
    · intro owner
      rw [warnings_note, List.count_append, count_warningsOf_other same, samePlaces,
        accounts.count_conflict, Nat.add_zero]
    · rw [warnings_note, List.count_append, count_warningsOf_unmatched, accounts.count_unmatched]

/-- A run of sightings is accounted for. -/
theorem Accounts.foldl_note
    {findings : Findings}
    {earlier : List Sighting}
    {id : String}
    (accounts : findings.Accounts earlier id)
    (sightings : List Sighting) :
    (sightings.foldl Findings.note findings).Accounts (earlier ++ sightings) id := by
  induction sightings generalizing findings earlier with
  | nil => simpa using accounts
  | cons sighting sightings inductionHypothesis =>
      simpa using inductionHypothesis (accounts.note sighting)

/-- Sightings have nothing to do with claims. -/
theorem unclaimed_foldl_note (findings : Findings) (sightings : List Sighting) :
    (sightings.foldl note findings).unclaimed = findings.unclaimed := by
  induction sightings generalizing findings with
  | nil => rfl
  | cons sighting sightings inductionHypothesis => exact inductionHypothesis (findings.note sighting)

/-- Sightings have nothing to do with assertions that have no pattern. -/
theorem failures_foldl_note (findings : Findings) (sightings : List Sighting) :
    (sightings.foldl note findings).failures = findings.failures := by
  induction sightings generalizing findings with
  | nil => rfl
  | cons sighting sightings inductionHypothesis => exact inductionHypothesis (findings.note sighting)

/-- Before the walk nothing was sighted. -/
theorem accounts_nil (failures : List Error) (id : String) :
    Accounts { failures := failures } [] id :=
  ⟨rfl, rfl, fun _ => rfl, rfl⟩

end Findings

/-! ## The review -/

namespace Annotator

variable (coverage : Coverage)

theorem outcome?_review (findings : Findings) (assertion : SpecAssertion) (id : String) :
    (review coverage findings assertion).outcome? id =
      if id = assertion.id then some ((findings.outcome? assertion.id).getD .unmatched)
      else findings.outcome? id :=
  findings.outcomes.get?_insert _ _ _

/-- After the review every assertion has the outcome that was found, or is not matched. -/
theorem outcome?_foldl_review
    (assertions : List SpecAssertion)
    (findings : Findings)
    (id : String) :
    (assertions.foldl (review coverage) findings).outcome? id =
      if id ∈ assertions.map SpecAssertion.id then some ((findings.outcome? id).getD .unmatched)
      else findings.outcome? id := by
  induction assertions generalizing findings with
  | nil => simp
  | cons assertion assertions inductionHypothesis =>
      rw [List.foldl_cons, inductionHypothesis, outcome?_review]
      by_cases same : id = assertion.id <;> simp [same]

theorem warnings_review (findings : Findings) (assertion : SpecAssertion) :
    (review coverage findings assertion).warnings =
      findings.warnings ++
        if (findings.outcome? assertion.id).getD .unmatched = .unmatched then
          [.unmatched assertion.id]
        else [] := by
  simp only [review]
  split <;> simp

/-- The review warns of nothing but assertions that were not found. -/
theorem count_matchedMultiple_foldl_review
    (assertions : List SpecAssertion)
    (findings : Findings)
    (id : String)
    (conflictingWith : Option String) :
    (assertions.foldl (review coverage) findings).warnings.count
        (.matchedMultiple id conflictingWith) =
      findings.warnings.count (.matchedMultiple id conflictingWith) := by
  induction assertions generalizing findings with
  | nil => rfl
  | cons assertion assertions inductionHypothesis =>
      rw [List.foldl_cons, inductionHypothesis, warnings_review, List.count_append]
      split <;> simp

/-- The review warns of each assertion that was not found, once for each time that it is listed. -/
theorem count_unmatched_foldl_review
    (assertions : List SpecAssertion)
    (findings : Findings)
    (id : String) :
    (assertions.foldl (review coverage) findings).warnings.count (.unmatched id) =
      findings.warnings.count (.unmatched id) +
        if (findings.outcome? id).getD .unmatched = .unmatched then
          (assertions.map SpecAssertion.id).count id
        else 0 := by
  induction assertions generalizing findings with
  | nil => simp
  | cons assertion assertions inductionHypothesis =>
      rw [List.foldl_cons, inductionHypothesis, warnings_review, outcome?_review,
        List.count_append, List.map_cons, List.count_cons]
      by_cases same : id = assertion.id
      · subst same
        by_cases notFound : (findings.outcome? assertion.id).getD .unmatched = .unmatched <;>
          simp [notFound]
        omega
      · have different : assertion.id ≠ id := Ne.symm same
        split <;> simp [different]

theorem failures_foldl_review (assertions : List SpecAssertion) (findings : Findings) :
    (assertions.foldl (review coverage) findings).failures = findings.failures := by
  induction assertions generalizing findings with
  | nil => rfl
  | cons assertion assertions inductionHypothesis =>
      exact inductionHypothesis (review coverage findings assertion)

/-- The review lists the assertions that no test claims, in the order of the assertions. -/
theorem unclaimed_foldl_review (assertions : List SpecAssertion) (findings : Findings) :
    (assertions.foldl (review coverage) findings).unclaimed =
      findings.unclaimed ++
        (assertions.map SpecAssertion.id).filter fun id => !coverage.isClaimed id := by
  induction assertions generalizing findings with
  | nil => simp
  | cons assertion assertions inductionHypothesis =>
      rw [List.foldl_cons, inductionHypothesis, List.map_cons, List.filter_cons]
      by_cases claimed : coverage.isClaimed assertion.id = true <;> simp [review, claimed]

end Annotator

end CrossReference
end Conformance
