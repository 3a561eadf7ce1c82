import Lox.Proofs.Lexical.Related

namespace Lox.Lexical

open Evaluation (Context)

section
variable (context : Context)

/-- A memory represents a store when both hold like values of the variables of a world, each of
which has a location of its own, and of the globals. -/
structure Represents (world : World) (store : Store Lox.Value) (memory : Memory) : Prop where
  alone : context.globals.outer = []
  frames : store.frames.size = world.frames
  present : context.globals.frame < world.frames
  apart : ∀ ⦃frame other : FrameId⦄ ⦃name query : String⦄ ⦃location : Location⦄,
    world.location? frame name = some location → world.location? other query = some location →
      frame = other ∧ name = query
  holds : ∀ ⦃frame : FrameId⦄ ⦃name : String⦄ ⦃location : Location⦄,
    world.location? frame name = some location → frame ≠ context.globals.frame ∧
      ∃ value held, store.read? frame name = some value ∧
        memory.cells[location]? = some held ∧ Related context world value held
  globals : ∀ name, Option.Rel (Related context world)
    (store.read? context.globals.frame name) (memory.globals.value? name)

end

namespace Represents

variable {context : Context} {world : World} {store : Store Lox.Value} {memory : Memory}
  {frame : FrameId} {name : String} {location : Location} {value : Lox.Value} {held : Value}

/-- Only frames that have been made have variables. -/
theorem old (represents : Represents context world store memory)
    (placed : world.location? frame name = some location) : frame < world.frames := by
  obtain ⟨-, value, -, found, -⟩ := represents.holds placed
  rw [← represents.frames]
  apply Nat.lt_of_not_le
  intro beyond
  simp [Store.read?, Array.getElem?_eq_none beyond] at found

/-- A frame that is still to come has no places. -/
theorem fresh (represents : Represents context world store memory) (name : String) :
    world.location? world.frames name = none := by
  cases placed : world.location? world.frames name with
  | none => rfl
  | some location => exact absurd (represents.old placed) (Nat.lt_irrefl _)

/-- A location that a frame holds is a cell of the memory. -/
theorem location_lt (represents : Represents context world store memory)
    (placed : world.location? frame name = some location) : location < memory.cells.size := by
  obtain ⟨-, -, held, -, found, -⟩ := represents.holds placed
  exact (Array.getElem?_eq_some_iff.1 found).1

/-- A bound global is bound in the memory to a related value. -/
theorem global_of_some (represents : Represents context world store memory)
    (found : store.read? context.globals.frame name = some value) :
    ∃ held, memory.globals.value? name = some held ∧ Related context world value held := by
  have globals := represents.globals name
  rw [found] at globals
  cases same : memory.globals.value? name with
  | none => simp [same] at globals
  | some held => exact ⟨held, rfl, by simpa [same] using globals⟩

/-- An unbound global is unbound in the memory. -/
theorem global_of_none (represents : Represents context world store memory)
    (missing : store.read? context.globals.frame name = none) :
    memory.globals.value? name = none := by
  have globals := represents.globals name
  rw [missing] at globals
  cases same : memory.globals.value? name with
  | none => rfl
  | some held => simp [same] at globals

/-- A new frame needs no memory. -/
theorem push (represents : Represents context world store memory) :
    Represents context world.push store.push memory := by
  have grows : world.Grows (fun _ => False) world.push := .push world
  refine ⟨represents.alone, ?_, Nat.lt_succ_of_lt represents.present, represents.apart, ?_, ?_⟩
  · simp [Store.push, World.push, represents.frames]
  · intro frame name location placed
    obtain ⟨other, value, held, found, stored, alike⟩ := represents.holds placed
    exact ⟨other, value, held, by rw [Store.read?_push, found], stored, alike.grow grows⟩
  · intro name
    rw [Store.read?_push]
    exact Related.grow_option (represents.globals name) grows

/-- A global gets like values in both. -/
theorem writeGlobal (represents : Represents context world store memory)
    (alike : Related context world value held) (name : String) :
    Represents context world (store.write context.globals.frame name value)
      { memory with globals := memory.globals.put name held } := by
  have present : context.globals.frame < store.frames.size :=
    represents.frames.symm ▸ represents.present
  refine ⟨represents.alone, ?_, represents.present, represents.apart, ?_, ?_⟩
  · simpa [Store.write] using represents.frames
  · intro frame query location placed
    obtain ⟨other, old, stored, found, kept, alike⟩ := represents.holds placed
    refine ⟨other, old, stored, ?_, kept, alike⟩
    rw [Store.read?_write _ _ _ _ _ _ present, if_neg fun both => other both.1.symm, found]
  · intro query
    rw [Store.read?_write _ _ _ _ _ _ present, Bindings.value?_put]
    by_cases same : name = query
    · rw [if_pos ⟨rfl, same⟩, if_pos same]
      exact .some alike
    · rw [if_neg fun both => same both.2, if_neg same]
      exact represents.globals query

/-- A variable gets like values in both. -/
theorem assign (represents : Represents context world store memory)
    (placed : world.location? frame name = some location)
    (alike : Related context world value held) :
    Represents context world (store.write frame name value)
      { memory with cells := memory.cells.setIfInBounds location held } := by
  have present : frame < store.frames.size := represents.frames.symm ▸ represents.old placed
  have inside := represents.location_lt placed
  refine ⟨represents.alone, ?_, represents.present, represents.apart, ?_, ?_⟩
  · simpa [Store.write] using represents.frames
  · intro other query location' placed'
    obtain ⟨different, old, stored, found, kept, related⟩ := represents.holds placed'
    refine ⟨different, ?_⟩
    rw [Store.read?_write _ _ _ _ _ _ present]
    by_cases same : frame = other ∧ name = query
    · obtain ⟨rfl, rfl⟩ := same
      cases placed.symm.trans placed'
      exact ⟨value, held, if_pos ⟨rfl, rfl⟩, by simp [inside], alike⟩
    · have apart : location ≠ location' := fun equal =>
        same (represents.apart placed (equal ▸ placed'))
      refine ⟨old, stored, (if_neg same).trans found, ?_, related⟩
      rw [Array.getElem?_setIfInBounds_ne apart, kept]
  · intro query
    rw [Store.read?_write _ _ _ _ _ _ present,
      if_neg fun both => (represents.holds placed).1 both.1]
    exact represents.globals query

/-- A declaration binds a name in its frame, where it takes a new location. -/
theorem declare (represents : Represents context world store memory)
    (other : frame ≠ context.globals.frame) (old : frame < world.frames)
    (fresh : world.location? frame name = none)
    (alike : Related context (world.bind frame name memory.cells.size) value held) :
    Represents context (world.bind frame name memory.cells.size) (store.write frame name value)
      { memory with cells := memory.cells.push held } := by
  have grows : world.Grows (fun _ => True) (world.bind frame name memory.cells.size) :=
    .bind fresh _ trivial
  have present : frame < store.frames.size := represents.frames.symm ▸ old
  refine ⟨represents.alone, ?_, represents.present, ?_, ?_, ?_⟩
  · simpa [Store.write, World.bind] using represents.frames
  · intro left right leftName rightName location first second
    rcases World.bind_cases first with ⟨rfl, rfl, rfl⟩ | ⟨-, first⟩
    · rcases World.bind_cases second with ⟨rfl, rfl, -⟩ | ⟨-, second⟩
      · exact ⟨rfl, rfl⟩
      · exact absurd (represents.location_lt second) (Nat.lt_irrefl _)
    · rcases World.bind_cases second with ⟨-, -, rfl⟩ | ⟨-, second⟩
      · exact absurd (represents.location_lt first) (Nat.lt_irrefl _)
      · exact represents.apart first second
  · intro inner query location placed
    rw [Store.read?_write _ _ _ _ _ _ present]
    rcases World.bind_cases placed with ⟨rfl, rfl, rfl⟩ | ⟨differs, placed⟩
    · exact ⟨other, value, held, if_pos ⟨rfl, rfl⟩, Array.getElem?_push_size, alike⟩
    · obtain ⟨different, oldValue, oldHeld, found, kept, related⟩ := represents.holds placed
      refine ⟨different, oldValue, oldHeld, (if_neg differs).trans found, ?_, related.grow grows⟩
      rw [Array.getElem?_push_lt (represents.location_lt placed)]
      exact (Array.getElem?_eq_getElem (represents.location_lt placed)).symm.trans kept
  · intro query
    rw [Store.read?_write _ _ _ _ _ _ present, if_neg fun both => other both.1]
    exact Related.grow_option (represents.globals query) grows

end Represents

end Lox.Lexical
