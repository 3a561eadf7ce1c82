import Mathlib.Data.List.Induction
import Lox.Proofs.Scope.Occurrences
import Lox.Proofs.Scope.Table

namespace Lox

open Resolution

/-- The distances of some programs that are resolved one after another. -/
def Distances.collect (programs : List Program) : Distances :=
  programs.foldl (fun distances program => distances.merge (resolve program).distances) ∅

/-- Two programs never have different distances for occurrences with the same number. The
occurrences of every program are numbered from zero on, so that most programs share numbers. -/
def Compatible (programs : List Program) : Prop :=
  ∀ program ∈ programs, ∀ other ∈ programs,
    ∀ target ∈ Stmt.targetsAll program, ∀ twin ∈ Stmt.targetsAll other, target.id = twin.id →
      (resolve program).table[target.id]? = (resolve other).table[target.id]?

instance (programs : List Program) : Decidable (Compatible programs) :=
  inferInstanceAs (Decidable (∀ program ∈ programs, ∀ other ∈ programs,
    ∀ target ∈ Stmt.targetsAll program, ∀ twin ∈ Stmt.targetsAll other, target.id = twin.id →
      (resolve program).table[target.id]? = (resolve other).table[target.id]?))

/-- The occurrence is in one of some programs. -/
def OccursIn (programs : List Program) (target : Occurrence) : Prop :=
  ∃ program ∈ programs, target ∈ Stmt.targetsAll program

/-- Fewer programs are compatible, too. -/
theorem Compatible.subset {programs others : List Program} (compatible : Compatible programs)
    (fewer : others ⊆ programs) : Compatible others :=
  fun program among other amongToo => compatible program (fewer among) other (fewer amongToo)

/-- What occurs in fewer programs occurs in more of them. -/
theorem OccursIn.subset {programs others : List Program} {target : Occurrence}
    (occurs : OccursIn others target) (more : others ⊆ programs) : OccursIn programs target := by
  obtain ⟨program, among, inside⟩ := occurs
  exact ⟨program, more among, inside⟩

/-- New distances come first, and old ones stay where there is no new one. -/
theorem merge_getElem? (old : Distances) (found : List (Nat × Nat)) (id : Nat) :
    (old.merge found)[id]? = (Distances.merge ∅ found)[id]?.or old[id]? := by
  induction found generalizing old with
  | nil => rfl
  | cons entry rest ih =>
      rw [merge_cons, merge_cons, ih, ih (Std.TreeMap.insert ∅ entry.1 entry.2), Option.or_assoc,
        Std.TreeMap.getElem?_insert, Std.TreeMap.getElem?_insert]
      split
      · rfl
      · simp

/-- A number with a distance belongs to an occurrence. -/
theorem target_of_table {program : Program} {id distance : Nat}
    (found : (resolve program).table[id]? = some distance) :
    ∃ target ∈ Stmt.targetsAll program, target.id = id := by
  by_cases listed : id ∈ idsOf (visitProgram program)
  · obtain ⟨visit, visited, same⟩ := List.mem_filterMap.1 listed
    cases visit with
    | occurrence target scopes =>
        cases same
        exact ⟨target, target_of_visitStmts program visited, rfl⟩
    | declaration | giveBack => cases same
  · have missing : (resolve program).table[id]? = (∅ : Distances)[id]? := by
      rw [resolve_eq]
      apply merge_of_notMem
      intro entry given same
      exact listed (same ▸ entry_mem_idsOf given)
    cases missing.symm.trans found

/-- The last program with a distance for a number decides. -/
theorem collect_getElem? (programs : List Program) (id : Nat) :
    (Distances.collect programs)[id]? =
      programs.reverse.findSome? fun program => (resolve program).table[id]? := by
  induction programs using List.reverseRecOn with
  | nil => rfl
  | append_singleton programs program ih =>
      rw [Distances.collect, List.foldl_append, List.foldl_cons, List.foldl_nil, merge_getElem?,
        List.reverse_append, List.reverse_singleton, List.singleton_append, List.findSome?_cons]
      change ((resolve program).table[id]?).or (Distances.collect programs)[id]? = _
      rw [ih]
      cases (resolve program).table[id]? <;> rfl

/-- A program that is compatible with others has the same distance wherever they have one. -/
theorem Compatible.table_eq {programs : List Program} (compatible : Compatible programs)
    {program other : Program} (among : program ∈ programs) (amongToo : other ∈ programs)
    {target : Occurrence} (occurs : target ∈ Stmt.targetsAll program) {distance : Nat}
    (found : (resolve other).table[target.id]? = some distance) :
    (resolve program).table[target.id]? = some distance := by
  obtain ⟨twin, inside, same⟩ := target_of_table found
  exact (compatible program among other amongToo target occurs twin inside same.symm).trans found

/-- Programs are compatible exactly if the collected distances are those of each program at all of
its occurrences. -/
theorem compatible_iff (programs : List Program) :
    Compatible programs ↔ ∀ program ∈ programs, ∀ target ∈ Stmt.targetsAll program,
      (Distances.collect programs)[target.id]? = (resolve program).table[target.id]? := by
  constructor
  · intro compatible program among target occurs
    rw [collect_getElem?]
    cases decided : programs.reverse.findSome?
        fun program => (resolve program).table[target.id]? with
    | some distance =>
        obtain ⟨other, amongToo, found⟩ := List.exists_of_findSome?_eq_some decided
        exact (compatible.table_eq among (List.mem_reverse.1 amongToo) occurs found).symm
    | none => exact (List.findSome?_eq_none_iff.1 decided program (List.mem_reverse.2 among)).symm
  · intro agree program among other amongToo target occurs twin inside same
    rw [← agree program among target occurs, same]
    exact agree other amongToo twin inside

end Lox
