import Lox.Proofs.Lexical.Simulation
import Lox.Proofs.Renaming.Agreement

namespace Lox.Lexical

open Lox.Computation
open Evaluation (Coupling Coupled Parallel makeClosure)

section
variable (new : Renaming) (size : Nat)

/-- Code of both programs sees the same locations, all of which have been taken. -/
structure Likewise (seen : Seen) (locals others : Locals) : Prop where
  agree : new.Agree seen locals.value? others.value?
  taken : ∀ ⦃name : String⦄ ⦃location : Location⦄, locals.value? name = some location →
    location < size

/-- Statements of both programs stand at the top level, or they see the same locations. -/
inductive Standing : View → Env → Env → Prop
  | top : Standing .top .top .top
  | inner {seen : Seen} {locals others : Locals} (likewise : Likewise new size seen locals others) :
      Standing (.inner seen) (.inner locals) (.inner others)

/-- A closure of the renamed program is that of a renamed declaration, and sees the same locations
as the other one. -/
structure RenamedClosure (closure other : ClosureIn Locals) : Prop where
  id : closure.id = other.id
  name : closure.name = other.name
  declared : ∃ (parameters : List Name) (seen : Seen),
    closure.parameters = parameters.map Located.item ∧
      other.parameters = (parameters.map new.located).map Located.item ∧
      other.body = new.stmts closure.body ∧
      Likewise new size seen closure.env other.env ∧
      (∀ mention ∈ mentionsParameters parameters, new.Fits mention) ∧
      ∀ mention ∈ mentionsStmts (.within seen parameters) closure.body, new.Fits mention

/-- Values of both programs are the same except for renamed closures. -/
abbrev Renamed : Value → Value → Prop := ValueIn.Like (RenamedClosure new size)

/-- Both memories hold like values in each location and each global. -/
structure RenamedMemory (memory other : Memory) : Prop where
  filled : memory.cells.size = size
  same : other.cells.size = size
  cells : ∀ location : Location,
    Option.Rel (Renamed new size) memory.cells[location]? other.cells[location]?
  globals : ∀ name,
    Option.Rel (Renamed new size) (memory.globals.value? name) (other.globals.value? name)

/-- The memories of a run and of one of the renamed program grow together. -/
def renamed : Coupling Nat Memory Memory :=
  ⟨RenamedMemory new, (· ≤ ·), Nat.le_refl, Nat.le_trans⟩

end

variable {new : Renaming} {size grown : Nat} {seen : Seen} {locals others : Locals} {view : View}
  {env inner : Env} {value held : Value}

/-- A closure keeps its number and its name. -/
theorem RenamedClosure.keeps (size : Nat) (closure other : ClosureIn Locals)
    (alike : RenamedClosure new size closure other) :
    closure.id = other.id ∧ closure.name = other.name :=
  ⟨alike.id, alike.name⟩

section
variable (more : size ≤ grown)
include more

/-- Environments stay alike when the memory grows. -/
theorem Likewise.grow (likewise : Likewise new size seen locals others) :
    Likewise new grown seen locals others :=
  ⟨likewise.agree, fun _ _ found => Nat.lt_of_lt_of_le (likewise.taken found) more⟩

/-- Two environments stay in correspondence when the memory grows. -/
theorem Standing.grow (standing : Standing new size view env inner) :
    Standing new grown view env inner := by
  cases standing with
  | top => exact .top
  | inner likewise => exact .inner (likewise.grow more)

/-- Values stay renamed when the memory grows. -/
theorem Renamed.grow (alike : Renamed new size value held) : Renamed new grown value held := by
  refine alike.imp fun closure other alike => ?_
  obtain ⟨parameters, seen, given, same, body, likewise, fits⟩ := alike.declared
  exact ⟨alike.id, alike.name, parameters, seen, given, same, body, likewise.grow more, fits⟩

theorem Renamed.grow_option {given same : Option Value}
    (alike : Option.Rel (Renamed new size) given same) :
    Option.Rel (Renamed new grown) given same := by
  cases alike with
  | none => exact .none
  | some alike => exact .some (Renamed.grow more alike)

end

namespace RenamedMemory

variable {memory other : Memory} (coupled : RenamedMemory new size memory other)
include coupled

/-- The renamed memory binds the same globals. -/
theorem binds (name : String) : other.globals.binds name = memory.globals.binds name := by
  have global := coupled.globals name
  unfold Bindings.binds
  generalize memory.globals.value? name = given at global
  generalize other.globals.value? name = same at global
  cases global <;> rfl

/-- A location gets like values in both memories. -/
theorem assign (alike : Renamed new size value held) (location : Location) :
    RenamedMemory new size
      { memory with cells := memory.cells.setIfInBounds location value }
      { other with cells := other.cells.setIfInBounds location held } := by
  refine { coupled with
    filled := by rw [Array.size_setIfInBounds, coupled.filled]
    same := by rw [Array.size_setIfInBounds, coupled.same]
    cells := fun query => ?_ }
  rw [Array.getElem?_setIfInBounds, Array.getElem?_setIfInBounds, coupled.filled, coupled.same]
  split
  next =>
    split
    next => exact .some alike
    next => exact .none
  next => exact coupled.cells query

/-- A global gets like values in both memories. -/
theorem writeGlobal (alike : Renamed new size value held) (name : String) :
    RenamedMemory new size { memory with globals := memory.globals.put name value }
      { other with globals := other.globals.put name held } := by
  refine { coupled with globals := fun query => ?_ }
  rw [Bindings.value?_put, Bindings.value?_put]
  split
  next => exact .some alike
  next => exact coupled.globals query

/-- A new location gets like values in both memories. -/
theorem push (alike : Renamed new (size + 1) value held) :
    RenamedMemory new (size + 1) { memory with cells := memory.cells.push value }
      { other with cells := other.cells.push held } := by
  refine ⟨by rw [Array.size_push, coupled.filled], by rw [Array.size_push, coupled.same],
    fun query => ?_, fun query => Renamed.grow_option (Nat.le_succ size) (coupled.globals query)⟩
  rw [Array.getElem?_push, Array.getElem?_push, coupled.filled, coupled.same]
  split
  next => exact .some alike
  next => exact Renamed.grow_option (Nat.le_succ size) (coupled.cells query)

end RenamedMemory

theorem Likewise.nothing (size : Nat) : Likewise new size [] [] [] := ⟨.nothing _, nofun⟩

/-- Environments in correspondence find the same locations. -/
theorem Standing.likewise (standing : Standing new size view env inner) :
    Likewise new size view.seen env.locals inner.locals := by
  cases standing with
  | top => exact .nothing size
  | inner likewise => exact likewise

/-- How many locations are taken behind a declaration. -/
def Env.takes (size : Nat) : Env → Nat
  | .top => size
  | .inner _ => size + 1

theorem Env.le_takes (size : Nat) (env : Env) : size ≤ env.takes size := by
  cases env with
  | top => exact Nat.le_refl size
  | inner => exact Nat.le_succ size

/-- A new location is seen behind a declaration. -/
theorem Standing.extend {what : Declares} {name : Name}
    (standing : Standing new size view env inner)
    (fits : new.Fits (.declaration what name view.isInner)) :
    Standing new (env.takes size) (view.extend name) (env.extend name.item size)
      (inner.extend (new.located name).item size) := by
  cases standing with
  | top => exact .top
  | @inner seen locals others likewise =>
      have first (query : String) : (locals.put name.item size).value? query =
          if name.item = query then some size else locals.value? query :=
        Bindings.value?_put ..
      refine .inner ⟨likewise.agree.extend fits first fun _ => Bindings.value?_put .., ?_⟩
      intro query location found
      rw [first] at found
      split at found
      next => exact Option.some.inj found ▸ Nat.lt_succ_self size
      next => exact Nat.lt_succ_of_lt (likewise.taken found)

section
variable {target : Occurrence} (likewise : Likewise new size seen locals others)
  (fits : new.Fits (.refer seen target))
include likewise fits

/-- An occurrence has the same location in both runs. -/
theorem location_renamed :
    others.value? (new.occurrence target).name = locals.value? target.name := by
  rw [Renaming.occurrence, fits.refer]
  exact likewise.agree.same target.name fits.refer_fresh

/-- A global keeps its name. -/
theorem occurrence_kept (missing : locals.value? target.name = none) :
    new.occurrence target = target := by
  have other : seen.value? target.name ≠ some new.declared.span := fun found =>
    likewise.agree.bound target.name found missing
  rw [Renaming.occurrence, fits.refer, Renaming.image, if_neg other]

/-- A renamed occurrence reads the renamed value. -/
theorem read_parallel :
    Parallel (renamed new) size (read locals target) (read others (new.occurrence target))
      (Renamed new) := by
  intro state stored coupled
  rw [read_eq, read_eq, Memory.read?, Memory.read?, location_renamed likewise fits]
  cases found : locals.value? target.name with
  | some location =>
      have inside : location < state.store.cells.size :=
        coupled.store.filled.symm ▸ likewise.taken found
      have cell := coupled.store.cells location
      simp only [Array.getElem?_eq_getElem inside] at cell ⊢
      generalize stored.store.cells[location]? = other at cell
      cases cell with
      | some alike => exact ⟨size, Nat.le_refl size, coupled, alike⟩
  | none =>
      rw [occurrence_kept likewise fits found]
      have global := coupled.store.globals target.name
      simp only
      generalize state.store.globals.value? target.name = given at global
      generalize stored.store.globals.value? target.name = other at global
      cases global with
      | none => exact ⟨rfl, coupled.output⟩
      | some alike => exact ⟨size, Nat.le_refl size, coupled, alike⟩

/-- A renamed occurrence is assigned in the same place. -/
theorem assign_parallel (alike : Renamed new size value held) :
    Parallel (renamed new) size (assign locals target value)
      (assign others (new.occurrence target) held) (fun _ _ _ => True) := by
  intro state stored coupled
  rw [assign_eq, assign_eq, Memory.assign?, Memory.assign?, location_renamed likewise fits]
  cases found : locals.value? target.name with
  | some location =>
      exact ⟨size, Nat.le_refl size,
        { coupled with store := coupled.store.assign alike location }, trivial⟩
  | none =>
      rw [occurrence_kept likewise fits found]
      simp only [coupled.store.binds]
      cases state.store.globals.binds target.name with
      | false => exact ⟨rfl, coupled.output⟩
      | true =>
          exact ⟨size, Nat.le_refl size,
            { coupled with store := coupled.store.writeGlobal alike target.name }, trivial⟩

end

section
variable {what : Declares} {name : Name} (standing : Standing new size view env inner)
  (fits : new.Fits (.declaration what name view.isInner))
include standing fits

/-- A declaration gives both memories a new location, or a global. -/
theorem coupled_declare {state stored : State} (coupled : Coupled (renamed new) size state stored)
    (alike : Renamed new (env.takes size) value held) :
    Coupled (renamed new) (env.takes size)
      { state with store := state.store.declare name.item value env }
      { stored with store := stored.store.declare (new.located name).item held inner } := by
  cases standing with
  | top =>
      have kept : (new.located name).item = name.item := fits.global
      rw [kept]
      exact { coupled with store := coupled.store.writeGlobal alike name.item }
  | inner => exact { coupled with store := coupled.store.push alike }

/-- A renamed declaration leaves the environments in correspondence. -/
theorem declare_parallel (alike : Renamed new size value held) :
    Parallel (renamed new) size (declare env name.item value)
      (declare inner (new.located name).item held)
      (fun grown => Standing new grown (view.extend name)) := by
  refine .modifyGet fun state stored coupled => ⟨env.takes size, env.le_takes size, ?_, ?_⟩
  · exact coupled_declare standing fits coupled (alike.grow (env.le_takes size))
  · rw [coupled.store.filled, coupled.store.same]
    exact standing.extend fits

end

/-- A function is declared in its own environment, so that it can call itself. -/
theorem declareFunction_apply (env : Env) (name : Name) (parameters : List Name)
    (body : List Stmt) (state : State) :
    declareFunction env name parameters body state =
      .ok (env.extend name.item state.store.cells.size)
        { state with
          closures := state.closures + 1
          store := state.store.declare name.item (.closure ⟨state.closures, name.item,
            parameters.map Located.item, body,
            (env.extend name.item state.store.cells.size).locals⟩) env } := rfl

/-- A function is declared in both runs, keeps its name and sees itself. -/
theorem declareFunction_parallel {name : Name} {parameters : List Name} {body : List Stmt}
    (standing : Standing new size view env inner)
    (here : new.Fits (.declaration .function name view.isInner))
    (outside : ∀ mention ∈ mentionsParameters parameters, new.Fits mention)
    (inside : ∀ mention ∈ mentionsStmts (.within (view.extend name).seen parameters) body,
      new.Fits mention) :
    Parallel (renamed new) size (declareFunction env name parameters body)
      (declareFunction inner (new.located name) (parameters.map new.located) (new.stmts body))
      (fun grown => Standing new grown (view.extend name)) := by
  intro state stored coupled
  have behind := standing.extend here
  have made : Coupled (renamed new) size { state with closures := state.closures + 1 }
      { stored with closures := stored.closures + 1 } :=
    { coupled with closures := congrArg (· + 1) coupled.closures }
  have alike : Renamed new (env.takes size)
      (.closure ⟨state.closures, name.item, parameters.map Located.item, body,
        (env.extend name.item size).locals⟩)
      (.closure ⟨stored.closures, (new.located name).item,
        (parameters.map new.located).map Located.item, new.stmts body,
        (inner.extend (new.located name).item size).locals⟩) :=
    .closure ⟨coupled.closures, here.function_kept.symm, parameters, (view.extend name).seen, rfl,
      rfl, rfl, behind.likewise, outside, inside⟩
  rw [declareFunction_apply, declareFunction_apply, coupled.store.filled, coupled.store.same]
  exact ⟨_, env.le_takes _, coupled_declare standing here made alike, behind⟩

end Lox.Lexical
