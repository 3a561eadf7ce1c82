import Lox.Proofs.Run.StatementSoundness
import Lox.Proofs.Run.Tracing

namespace Lox.Evaluation

open Lox.Computation Resolution

section
variable {context : Context} {scopes : List Scope} {fuel : Nat} {env : Env} {state after : State}
  {moment : Moment} {halt : Halt}

/-- A moment that is ready has a valid store. -/
theorem Ready.store (ready : Ready context scopes moment) :
    ValidStore context moment.state.store := by
  obtain ⟨fuel, task, state⟩ := moment
  cases task with
  | call => exact ready.1
  | _ => exact ready.1.store

/-- The value of an expression leaves a valid store. -/
theorem store_of_expr {expr : Expr} {value : Value}
    (ready : Ready context scopes ⟨fuel, .expr env expr, state⟩)
    (ended : Gives (evalExpr context fuel env expr) state value after) :
    ValidStore context after.store := by
  have meets : Meets (evalExpr context fuel env expr) state (GivesValid context state) _ :=
    (sound context ready).holds
  exact (meets.of_gives ended).1.store

/-- The last part before a halt is ready. -/
theorem store_of_part {expr : Expr} {value : Value} (ready : Ready context scopes moment)
    (leads : Part context moment ⟨fuel, .expr env expr, state⟩)
    (ended : Gives (evalExpr context fuel env expr) state value after) :
    ValidStore context after.store := by
  obtain ⟨fuel, task, before⟩ := moment
  obtain ⟨inner, part⟩ := (sound context ready).parts _ leads
  exact store_of_expr part ended

/-- What raises a halt leaves the store valid. -/
theorem store_of_raises (ready : Ready context scopes moment)
    (raised : Raises context moment halt after) : ValidStore context after.store := by
  cases raised with
  | outOfFuel | access | called | arity => exact ready.store
  | unary first => exact store_of_part ready .unary first
  | binary first second => exact store_of_part ready (.binaryRight first) second
  | callee first => exact store_of_part ready .callee first
  | print first =>
      have kept := store_of_part ready .print first
      exact kept

/-- Work that halts leaves a valid store. -/
theorem store_of_halts (ready : Ready context scopes moment)
    (halted : Halts context moment halt after) : ValidStore context after.store := by
  obtain ⟨last, reached, raised⟩ := halts_iff.1 halted
  obtain ⟨inner, lastReady⟩ := ready_of_reaches context ready reached
  exact store_of_raises lastReady raised

end

/-- A store with closures of known occurrences is valid for all distances that are the same for
these. -/
theorem ValidStore.transfer {context other : Context} {store : Store Value}
    {known : Occurrence → Prop} (valid : ValidStore context store) (traced : KnownStore known store)
    (globals : other.globals = context.globals)
    (same : ∀ target, known target → other.distances[target.id]? = context.distances[target.id]?) :
    ValidStore other store := by
  refine ⟨globals ▸ valid.alone, globals ▸ valid.present, ?_⟩
  rintro frame name _ found closure rfl
  obtain ⟨scopes, fits, settled, agrees, proper⟩ := valid.values found rfl
  refine ⟨scopes, globals ▸ fits, settled, ?_, proper⟩
  intro target around visited
  rw [same target (traced found target (target_of_visitStmts _ visited))]
  exact agrees visited

end Lox.Evaluation
