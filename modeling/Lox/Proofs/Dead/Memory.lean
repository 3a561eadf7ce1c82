import Mathlib.Data.List.Forall2
import Lox.Proofs.Dead.Pruning
import Lox.Proofs.Lexical.Parallel
import Lox.Proofs.Run.Tracing

namespace Lox.Evaluation

open Lox.Computation

section
variable (context other : Context)

/-- Both runs look for an occurrence at the same distance. -/
def Agreed (target : Occurrence) : Prop :=
  context.distances[target.id]? = other.distances[target.id]?

/-- A closure of the pruned program has a pruned body and stands in the same frames. Frames have the
same numbers in both runs, so that the world has nothing to note about them. -/
structure PrunedClosure (world : Unit) (closure held : Closure) : Prop where
  id : closure.id = held.id
  name : closure.name = held.name
  parameters : closure.parameters = held.parameters
  env : closure.env = held.env
  body : held.body = Stmt.prunedAll closure.body
  agreed : AllKnown (Agreed context other) (Stmt.targetsAll held.body)

/-- Values of both runs are the same except for pruned closures. -/
abbrev Pruned : Value → Value → Prop := ValueIn.Like (PrunedClosure context other ())

/-- Both stores have the same frames, which hold like values under the same names. -/
structure PrunedStore (store held : Store Value) : Prop where
  size : store.frames.size = held.frames.size
  values : ∀ frame name,
    Option.Rel (Pruned context other) (store.read? frame name) (held.read? frame name)

/-- The stores of a program and of the pruned program. -/
def pruned : Coupling Unit (Store Value) (Store Value) :=
  ⟨fun _ => PrunedStore context other, fun _ _ => True, fun _ => trivial, fun _ _ => trivial⟩

/-- Two runs have the same global frame and read the same clock. -/
structure SameOutside : Prop where
  globals : context.globals = other.globals
  clock : context.clock = other.clock

end

variable {context other : Context} {store held : Store Value} {value same : Value}
  {env : Env} {target : Occurrence}

/-- A pruned closure has the same identity and the same name. -/
theorem PrunedClosure.keeps (world : Unit) (closure held : Closure)
    (alike : PrunedClosure context other world closure held) :
    closure.id = held.id ∧ closure.name = held.name :=
  ⟨alike.id, alike.name⟩

namespace PrunedStore

variable (alike : PrunedStore context other store held)
include alike

/-- Both stores bind the same names. -/
theorem isSome (frame : FrameId) (name : String) :
    (store.read? frame name).isSome = (held.read? frame name).isSome := by
  have values := alike.values frame name
  generalize store.read? frame name = given at values
  generalize held.read? frame name = found at values
  cases values <;> rfl

theorem push : PrunedStore context other store.push held.push := by
  refine ⟨?_, fun frame name => ?_⟩
  · simp only [Store.push, Array.size_push, alike.size]
  · rw [Store.read?_push, Store.read?_push]
    exact alike.values frame name

/-- Writes of alike values keep the stores alike. -/
theorem write (given : Pruned context other value same) (frame : FrameId) (name : String) :
    PrunedStore context other (store.write frame name value) (held.write frame name same) := by
  by_cases present : frame < store.frames.size
  · refine ⟨?_, fun query wanted => ?_⟩
    · simp only [Store.write, Array.size_modify, alike.size]
    · rw [Store.read?_write _ _ _ _ _ _ present, Store.read?_write _ _ _ _ _ _ (alike.size ▸ present)]
      split
      next => exact .some given
      next => exact alike.values query wanted
  · rw [Store.write_of_absent _ _ _ _ present, Store.write_of_absent _ _ _ _ (alike.size ▸ present)]
    exact alike

/-- An occurrence has the same frame in both stores. -/
theorem frameFor (outside : SameOutside context other) (agreed : Agreed context other target) :
    frameFor context env target store = frameFor other env target held := by
  unfold Evaluation.frameFor Store.frameAt Store.frameOf
  simp only [agreed.symm, ← outside.globals, alike.isSome]

end PrunedStore

/-- A new frame is the same in both runs. -/
theorem nest_pruned (env : Env) :
    Parallel (pruned context other) () (nest env) (nest env) (fun _ inner also => inner = also) := by
  refine .modifyGet fun state stored coupled => ⟨(), trivial, ?_, ?_⟩
  · exact { coupled with store := coupled.store.push }
  · exact congrArg (Env.mk · env.frames) coupled.store.size

/-- Alike values may be defined on both sides. -/
theorem define_pruned (env : Env) (name : String) (given : Pruned context other value same) :
    Parallel (pruned context other) () (define env name value) (define env name same)
      (fun _ _ _ => True) :=
  .modifyGet fun _ _ coupled =>
    ⟨(), trivial, { coupled with store := coupled.store.write given env.frame name }, trivial⟩

/-- A declaration makes a closure in both runs, with the same number. -/
theorem makeClosure_pruned (env : Env) (name : Name) (parameters : List Name) (body : List Stmt)
    (agreed : AllKnown (Agreed context other) (Stmt.targetsAll (Stmt.prunedAll body))) :
    Parallel (pruned context other) () (makeClosure env name parameters body)
      (makeClosure env name parameters (Stmt.prunedAll body)) (fun _ => Pruned context other) :=
  .modifyGet fun _ _ coupled =>
    ⟨(), trivial, { coupled with closures := congrArg (· + 1) coupled.closures },
      .closure ⟨coupled.closures, rfl, rfl, rfl, rfl, agreed⟩⟩

/-- The parameters of a call are bound to like values in both runs. -/
theorem bindAll_pruned (env : Env) {given values : List Value}
    (passed : List.Forall₂ (Pruned context other) given values) (parameters : List String) :
    Parallel (pruned context other) ()
      ((parameters.zip given).forM fun (name, value) => define env name value)
      ((parameters.zip values).forM fun (name, value) => define env name value)
      (fun _ _ _ => True) := by
  induction parameters generalizing given values with
  | nil => exact .pure trivial
  | cons name rest ih =>
      cases passed with
      | nil => exact .pure trivial
      | cons first others =>
          exact (define_pruned env name first).bind fun _ _ _ _ _ => ih others

/-- A call has the same new frame in both runs. -/
theorem enter_pruned {closure also : Closure} {given values : List Value}
    (alike : PrunedClosure context other () closure also)
    (passed : List.Forall₂ (Pruned context other) given values) :
    Parallel (pruned context other) () (enter closure given) (enter also values)
      (fun _ env inner => env = inner) := by
  unfold enter
  rw [alike.env, ← alike.parameters]
  refine (nest_pruned _).bind fun _ inner _ _ same => ?_
  subst same
  exact (bindAll_pruned inner passed closure.parameters).bind fun _ _ _ _ _ => .pure rfl

section
variable (outside : SameOutside context other) (agreed : Agreed context other target)
include outside agreed

/-- A variable is found in the same frame on both sides. -/
theorem locate_pruned (env : Env) :
    Parallel (pruned context other) () (locate context env target) (locate other env target)
      (fun _ frame same => frame = same) := by
  intro state stored coupled
  rw [locate_eq, locate_eq, coupled.store.frameFor outside agreed]
  cases frameFor other env target stored.store with
  | ok frame => exact ⟨(), trivial, coupled, rfl⟩
  | error fault => exact ⟨rfl, coupled.output⟩

/-- A variable has alike values on both sides. -/
theorem read_pruned (env : Env) :
    Parallel (pruned context other) () (read context env target) (read other env target)
      (fun _ => Pruned context other) := by
  unfold read
  refine (locate_pruned outside agreed env).bind fun _ frame _ _ same => ?_
  subst same
  intro state stored coupled
  rw [bind_of_ok (get_apply _), bind_of_ok (get_apply _), Store.readIn, Store.readIn]
  have values := coupled.store.values frame target.name
  generalize state.store.read? frame target.name = given at values
  generalize stored.store.read? frame target.name = found at values
  cases values with
  | none => exact ⟨rfl, coupled.output⟩
  | some alike => exact ⟨(), trivial, coupled, alike⟩

/-- Alike values may be assigned on both sides. -/
theorem assign_pruned (env : Env) (given : Pruned context other value same) :
    Parallel (pruned context other) () (assign context env target value)
      (assign other env target same) (fun _ _ _ => True) := by
  unfold assign
  refine (locate_pruned outside agreed env).bind fun _ frame _ _ same => ?_
  subst same
  exact .modifyGet fun _ _ coupled =>
    ⟨(), trivial, { coupled with store := coupled.store.write given frame target.name }, trivial⟩

end

end Lox.Evaluation
