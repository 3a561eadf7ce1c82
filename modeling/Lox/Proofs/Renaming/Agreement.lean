import Mathlib.Data.List.Nodup
import Lox.Proofs.Renaming.Mentions

namespace Lox.Renaming

variable (new : Renaming)

/-- A mention has the new name exactly if it is about the declaration that gets it. The new name is
not used yet, and no function gets it. -/
structure Fits (mention : Mention) : Prop where
  chosen : mention.name.span ∈ new.places ↔ mention.about = some new.declared.span
  named : mention.name.span = new.declared.span → mention.name.item = new.declared.item
  fresh : mention.name.item ≠ new.name
  function : ∀ name isLocal, mention = .declaration .function name isLocal →
    name.span ∉ new.places

/-- What a name becomes in code that sees some declarations. -/
def image (seen : Seen) (name : String) : String :=
  if seen.value? name = some new.declared.span then new.name else name

/-- Two maps agree when the second one has for what a name becomes what the first one has for the
name. They have the declaration that is renamed where it is seen. -/
structure Agree {α : Type} (seen : Seen) (before after : String → Option α) : Prop where
  named : ∀ name, seen.value? name = some new.declared.span → name = new.declared.item
  bound : ∀ name, seen.value? name = some new.declared.span → before name ≠ none
  same : ∀ name, name ≠ new.name → after (new.image seen name) = before name

section
variable {new} {α : Type} {seen : Seen} {before after : String → Option α}

/-- An occurrence becomes what its name becomes in the code around it. -/
theorem Fits.refer {target : Occurrence} (fits : new.Fits (.refer seen target)) :
    new.rename target.span target.name = new.image seen target.name :=
  if_congr fits.chosen rfl rfl

/-- No reference has the new name yet. -/
theorem Fits.refer_fresh {target : Occurrence} (fits : new.Fits (.refer seen target)) :
    target.name ≠ new.name := fits.fresh

/-- A global declaration keeps its name. -/
theorem Fits.global {what : Declares} {name : Name}
    (fits : new.Fits (.declaration what name false)) :
    new.rename name.span name.item = name.item :=
  if_neg fun chosen => nomatch fits.chosen.1 chosen

/-- A function keeps its name, which its values show. -/
theorem Fits.function_kept {name : Name} {isLocal : Bool}
    (fits : new.Fits (.declaration .function name isLocal)) :
    new.rename name.span name.item = name.item :=
  if_neg (fits.function name isLocal rfl)

/-- A local declaration is renamed exactly at the declared span. -/
theorem Fits.rename_local {what : Declares} {name : Name}
    (fits : new.Fits (.declaration what name true)) :
    new.rename name.span name.item =
      if name.span = new.declared.span then new.name else name.item :=
  if_congr (fits.chosen.trans Option.some_inj) rfl rfl

/-- A local declaration becomes another name than the new one only if it keeps its name. -/
theorem Fits.item_eq {what : Declares} {name : Name} {query : String}
    (fits : new.Fits (.declaration what name true))
    (same : new.rename name.span name.item = query) (used : query ≠ new.name) :
    name.item = query := by
  rw [fits.rename_local] at same
  split at same
  next => exact absurd same.symm used
  next => exact same

/-- Only the declaration that is renamed gets the new name. -/
theorem Fits.declared_eq {what : Declares} {name : Name}
    (fits : new.Fits (.declaration what name true))
    (same : new.rename name.span name.item = new.name) : name.item = new.declared.item := by
  rw [fits.rename_local] at same
  split at same
  next here => exact fits.named here
  next => exact absurd same fits.fresh

namespace Agree

/-- Where nothing is in scope, nothing is renamed. -/
theorem nothing (before : String → Option α) : new.Agree [] before before :=
  ⟨nofun, nofun, fun _ _ => rfl⟩

/-- What a declared name becomes is not what another name becomes. -/
theorem rename_ne {what : Declares} {name : Name}
    (agree : new.Agree seen before after) (fits : new.Fits (.declaration what name true))
    {query : String} (other : name.item ≠ query) (used : query ≠ new.name) :
    new.rename name.span name.item ≠ new.image seen query := by
  rw [fits.rename_local, image]
  split
  next here =>
    have name : name.item = new.declared.item := fits.named here
    split
    next found => exact fun _ => other (name.trans (agree.named query found).symm)
    next => exact used.symm
  next =>
    split
    next => exact fits.fresh
    next => exact other

/-- A declaration is added to both maps. -/
theorem extend {what : Declares} {name : Name} {value : α}
    {grown extended : String → Option α} (agree : new.Agree seen before after)
    (fits : new.Fits (.declaration what name true))
    (first : ∀ query, grown query = if name.item = query then some value else before query)
    (second : ∀ query, extended query =
      if new.rename name.span name.item = query then some value else after query) :
    new.Agree (seen.put name.item name.span) grown extended := by
  refine ⟨fun query found => ?_, fun query found => ?_, fun query used => ?_⟩
  · rw [Bindings.value?_put] at found
    split at found
    next same => exact same.symm.trans (fits.named (Option.some.inj found))
    next => exact agree.named query found
  · rw [Bindings.value?_put] at found
    rw [first]
    split at found
    next same => rw [if_pos same]; nofun
    next other => rw [if_neg other]; exact agree.bound query found
  · rw [first, second]
    by_cases same : name.item = query
    · subst same
      have here : new.image (seen.put name.item name.span) name.item =
          new.rename name.span name.item := by
        rw [fits.rename_local, image, Bindings.value?_put, if_pos rfl]
        exact if_congr Option.some_inj rfl rfl
      rw [here, if_pos rfl, if_pos rfl]
    · have there : new.image (seen.put name.item name.span) query = new.image seen query := by
        rw [image, Bindings.value?_put, if_neg same]
        rfl
      rw [there, if_neg same, if_neg (agree.rename_ne fits same used)]
      exact agree.same query used

end Agree

end

/-- The renaming of a local declaration fits all mentions of the program, if they are at different
places and the new name is not among them. -/
theorem of_fits {program : Program} {declared : Name} {name : String}
    (isLocal : DeclaresLocally program declared)
    (distinct : ((mentionsOf program).map fun mention => mention.name.span).Nodup)
    (unused : ∀ mention ∈ mentionsOf program, mention.name.item ≠ name) :
    ∀ mention ∈ mentionsOf program, (Renaming.of program declared name).Fits mention := by
  have single {first second : Mention} (left : first ∈ mentionsOf program)
      (right : second ∈ mentionsOf program) (same : first.name.span = second.name.span) :
      first = second := List.inj_on_of_nodup_map distinct left right same
  obtain ⟨what, given, kind⟩ : ∃ what, .declaration what declared true ∈ mentionsOf program ∧
      what ≠ .function := by
    rcases isLocal with given | given
    · exact ⟨.variable, given, nofun⟩
    · exact ⟨.parameter, given, nofun⟩
  have chosen {mention : Mention} (among : mention ∈ mentionsOf program) :
      mention.name.span ∈ (Renaming.of program declared name).places ↔
        mention.about = some declared.span := by
    refine List.mem_map.trans ⟨?_, fun about => ?_⟩
    · rintro ⟨other, found, same⟩
      obtain ⟨inside, about⟩ := List.mem_filter.1 found
      rw [← single inside among same]
      exact of_decide_eq_true about
    · exact ⟨mention, List.mem_filter.2 ⟨among, decide_eq_true about⟩, rfl⟩
  intro mention among
  refine ⟨chosen among, fun same => ?_, unused mention among, ?_⟩
  · rw [single among given same]
    rfl
  · rintro place isLocal rfl inside
    have about := (chosen among).1 inside
    cases isLocal with
    | false => cases about
    | true =>
        have same := single among given (Option.some.inj about)
        exact kind (Mention.declaration.inj same).1.symm

end Lox.Renaming
