import Lox.Evaluation
import Lox.Proofs.Computation

namespace Lox.Evaluation

open Lox.Computation

variable {context : Context} {env : Env} {state : State} {target : Occurrence}

/-- A distance leads to a frame of the chain. -/
theorem locate_of_distance {distance : Nat} {frame : FrameId}
    (found : context.distances[target.id]? = some distance)
    (given : env.frames[distance]? = some frame)
    (bound : (state.store.read? frame target.name).isSome) :
    locate context env target state = .ok frame state := by
  unfold locate
  rw [bind_of_ok (get_apply state)]
  simp only [found, Store.frameAt, given, bound, ↓reduceIte]
  rfl

/-- Without a distance the name is that of a global. -/
theorem locate_of_global (env : Env) (state : State)
    (missing : context.distances[target.id]? = none) (alone : context.globals.outer = []) :
    locate context env target state =
      if (state.store.read? context.globals.frame target.name).isSome then
        .ok context.globals.frame state
      else .error (.error ⟨.notDefined target.name, target.span⟩) state := by
  unfold locate
  rw [bind_of_ok (get_apply state)]
  simp only [missing, Store.frameOf, Env.frames, alone, List.find?_cons, List.find?_nil]
  cases state.store.read? context.globals.frame target.name <;> rfl

/-- A variable that is located where it is bound is read there. -/
theorem read_of_located {frame : FrameId} {value : Value}
    (located : locate context env target state = .ok frame state)
    (found : state.store.read? frame target.name = some value) :
    read context env target state = .ok value state := by
  unfold read
  rw [bind_of_ok located, bind_of_ok (get_apply state)]
  simp only [Store.readIn, found]
  rfl

/-- A variable that is located is assigned there. -/
theorem assign_of_located {frame : FrameId}
    (located : locate context env target state = .ok frame state) (value : Value) :
    assign context env target value state =
      .ok () { state with store := state.store.write frame target.name value } := by
  unfold assign
  rw [bind_of_ok located]
  rfl

end Lox.Evaluation
