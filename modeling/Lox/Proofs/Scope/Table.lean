import Lox.Proofs.Scope.Walk

namespace Lox.Resolution

/-- The numbers of the occurrences that are visited, in order. -/
def idsOf (visits : List Visit) : List Nat := visits.filterMap Visit.id?

@[simp] theorem idsOf_nil : idsOf [] = [] := rfl

@[simp] theorem idsOf_append (visits others : List Visit) :
    idsOf (visits ++ others) = idsOf visits ++ idsOf others := by
  simp [idsOf]

@[simp] theorem idsOf_occurrence (target : Occurrence) (scopes : List Scope)
    (visits : List Visit) :
    idsOf (.occurrence target scopes :: visits) = target.id :: idsOf visits := rfl

@[simp] theorem idsOf_declaration (name : Name) (scopes : List Scope) (visits : List Visit) :
    idsOf (.declaration name scopes :: visits) = idsOf visits := rfl

/-- Some distances agree with some visits when they hold for every occurrence the distance that it
has under its scopes, and nothing if it has none. -/
def Agrees (distances : Distances) (visits : List Visit) : Prop :=
  ∀ ⦃target : Occurrence⦄ ⦃scopes : List Scope⦄, .occurrence target scopes ∈ visits →
    distances[target.id]? = distanceIn? scopes target.name

/-- A table agrees with two lists of visits if it agrees with each. -/
theorem agrees_append {distances : Distances} {visits others : List Visit} :
    Agrees distances (visits ++ others) ↔ Agrees distances visits ∧ Agrees distances others := by
  constructor
  · intro agrees
    exact ⟨fun _ _ visited => agrees (List.mem_append_left _ visited),
      fun _ _ visited => agrees (List.mem_append_right _ visited)⟩
  · rintro ⟨first, second⟩ target scopes visited
    rcases List.mem_append.1 visited with early | late
    · exact first early
    · exact second late

/-- A table that agrees with visits agrees with all but the first. -/
theorem Agrees.tail {distances : Distances} {visit : Visit} {visits : List Visit}
    (agrees : Agrees distances (visit :: visits)) : Agrees distances visits :=
  fun _ _ visited => agrees (List.mem_cons_of_mem _ visited)

theorem merge_cons (old : Distances) (entry : Nat × Nat) (found : List (Nat × Nat)) :
    old.merge (entry :: found) = Distances.merge (old.insert entry.1 entry.2) found := rfl

/-- Two lists of distances are merged one behind the other. -/
theorem merge_append (old : Distances) (first second : List (Nat × Nat)) :
    old.merge (first ++ second) = (old.merge first).merge second :=
  List.foldl_append

/-- Distances of other occurrences leave the distance of an occurrence as it is. -/
theorem merge_of_notMem {old : Distances} {found : List (Nat × Nat)} {id : Nat}
    (other : ∀ entry ∈ found, entry.1 ≠ id) : (old.merge found)[id]? = old[id]? := by
  induction found generalizing old with
  | nil => rfl
  | cons entry rest ih =>
      have differs := other entry List.mem_cons_self
      rw [merge_cons, ih fun entry given => other entry (List.mem_cons_of_mem _ given),
        Std.TreeMap.getElem?_insert, if_neg (by simpa using differs)]

/-- The entries of visits belong to their occurrences. -/
theorem entry_mem_idsOf {visits : List Visit} {entry : Nat × Nat}
    (found : entry ∈ visits.filterMap Visit.record?) : entry.1 ∈ idsOf visits := by
  obtain ⟨visit, visited, same⟩ := List.mem_filterMap.1 found
  refine List.mem_filterMap.2 ⟨visit, visited, ?_⟩
  cases visit with
  | occurrence target scopes =>
      obtain ⟨distance, -, rfl⟩ := Option.map_eq_some_iff.1 same
      rfl
  | declaration => cases same
  | giveBack => cases same

/-- The table of a program whose occurrences have different numbers agrees with all visits. -/
theorem table_agrees {program : Program} (different : (idsOf (visitProgram program)).Nodup) :
    Agrees (resolve program).table (visitProgram program) := by
  intro target scopes visited
  obtain ⟨before, after, split⟩ := List.append_of_mem visited
  rw [split, idsOf_append, idsOf_occurrence] at different
  obtain ⟨-, distinct, apart⟩ := List.nodup_append.1 different
  have early : ∀ entry ∈ before.filterMap Visit.record?, entry.1 ≠ target.id := fun _ found =>
    apart _ (entry_mem_idsOf found) _ List.mem_cons_self
  have late : ∀ entry ∈ after.filterMap Visit.record?, entry.1 ≠ target.id := by
    intro entry found same
    exact (List.nodup_cons.1 distinct).1 (same ▸ entry_mem_idsOf found)
  have first : (Distances.merge ∅ (before.filterMap Visit.record?))[target.id]? = none := by
    rw [merge_of_notMem early]
    rfl
  rw [resolve_eq, Resolution.table, split, List.filterMap_append, merge_append]
  cases given : distanceIn? scopes target.name with
  | none =>
      rw [List.filterMap_cons_none (by simp [Visit.record?, given]), merge_of_notMem late, first]
  | some distance =>
      have entry : (Visit.occurrence target scopes).record? = some (target.id, distance) := by
        simp [Visit.record?, given]
      rw [List.filterMap_cons_some entry, merge_cons, merge_of_notMem late]
      exact Std.TreeMap.getElem?_insert_self

end Lox.Resolution
