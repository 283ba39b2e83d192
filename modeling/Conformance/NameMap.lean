/-!
# Maps from names

A finite map from names to values that lists its names in the order of their arrival.  No name is
listed twice.
-/

namespace Conformance

/-- A finite map from names, in the order in which the names arrived. -/
structure NameMap (α : Type) where
  /-- The names with their values. -/
  entries : List (String × α) := []
  /-- No name is listed twice. -/
  nodup_names : (entries.map Prod.fst).Nodup := by simp

namespace NameMap

variable {α : Type}

instance : EmptyCollection (NameMap α) := ⟨{}⟩

instance : Inhabited (NameMap α) := ⟨∅⟩

/-- The names in the order of their arrival. -/
def names (map : NameMap α) : List String :=
  map.entries.map Prod.fst

/-- The value of a name. -/
def get? (map : NameMap α) (name : String) : Option α :=
  map.entries.lookup name

/-- Whether a name has a value. -/
def contains (map : NameMap α) (name : String) : Bool :=
  (map.get? name).isSome

/-- The number of names. -/
def size (map : NameMap α) : Nat :=
  map.entries.length

/-- Gives the name the value computed from its previous one, in place or as a last entry. -/
def updateEntries
    (name : String)
    (change : Option α → α) :
    List (String × α) → List (String × α)
  | [] => [(name, change none)]
  | (key, value) :: rest =>
      if key = name then (key, change (some value)) :: rest
      else (key, value) :: updateEntries name change rest

/-- An update keeps the listed names and adds a new name at the end. -/
theorem map_fst_updateEntries
    (name : String)
    (change : Option α → α)
    (entries : List (String × α)) :
    (updateEntries name change entries).map Prod.fst =
      if name ∈ entries.map Prod.fst then entries.map Prod.fst
      else entries.map Prod.fst ++ [name] := by
  induction entries with
  | nil => simp [updateEntries]
  | cons entry rest inductionHypothesis =>
      obtain ⟨key, value⟩ := entry
      by_cases equal : key = name
      · simp [updateEntries, equal]
      · by_cases listed : name ∈ rest.map Prod.fst
        · simp_all [updateEntries]
        · have different : name ≠ key := Ne.symm equal
          simp_all [updateEntries]

/-- Gives a name the value computed from its previous one. -/
def update
    (map : NameMap α)
    (name : String)
    (change : Option α → α) :
    NameMap α where
  entries := updateEntries name change map.entries
  nodup_names := by
    rw [map_fst_updateEntries]
    split
    · exact map.nodup_names
    · next absent =>
        exact List.nodup_append.2
          ⟨map.nodup_names, by simp, fun key listed other isName => by
            simp only [List.mem_singleton] at isName
            rintro rfl
            exact absent (isName ▸ listed)⟩

/-- Gives a name a value; a previous one is forgotten. -/
def insert (map : NameMap α) (name : String) (value : α) : NameMap α :=
  map.update name fun _ => value

/-- The map with the given entries; of several entries for a name the last one counts. -/
def ofList (entries : List (String × α)) : NameMap α :=
  entries.foldl (fun map (name, value) => map.insert name value) ∅

/-- The entries in increasing order of their names, by code points. -/
def sorted (map : NameMap α) : List (String × α) :=
  map.entries.mergeSort fun first second => decide (first.1 ≤ second.1)

theorem lookup_updateEntries
    (name other : String)
    (change : Option α → α)
    (entries : List (String × α)) :
    (updateEntries name change entries).lookup other =
      if other = name then some (change (entries.lookup name)) else entries.lookup other := by
  induction entries with
  | nil =>
      by_cases same : other = name <;>
        simp [updateEntries, List.lookup_cons, same, beq_eq_false_iff_ne.2]
  | cons entry rest inductionHypothesis =>
      obtain ⟨key, value⟩ := entry
      by_cases equal : key = name
      · subst equal
        by_cases same : other = key
        · simp [updateEntries, same]
        · simp [updateEntries, List.lookup_cons, same, beq_eq_false_iff_ne.2]
      · have different : name ≠ key := Ne.symm equal
        by_cases same : other = key
        · subst same
          simp [updateEntries, equal]
        · simp [updateEntries, List.lookup_cons, equal, same, different,
            beq_eq_false_iff_ne.2, inductionHypothesis]

/-- An update is seen under its own name and nowhere else. -/
theorem get?_update (map : NameMap α) (name other : String) (change : Option α → α) :
    (map.update name change).get? other =
      if other = name then some (change (map.get? name)) else map.get? other :=
  lookup_updateEntries name other change map.entries

end NameMap

end Conformance
