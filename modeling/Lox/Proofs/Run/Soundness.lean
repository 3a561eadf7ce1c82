import Lox.Proofs.Run.Access
import Lox.Proofs.Run.Parts
import Lox.Proofs.Run.Validity

namespace Lox.Evaluation

open Lox.Computation Resolution

/-- A computation ends in an expected way, with a value or at a halt. -/
def Meets {α : Type} (compute : Eval α) (state : State) (given : α → State → Prop)
    (halts : Halt → Prop) : Prop :=
  match compute state with
  | .ok value after => given value after
  | .error halt _ => halts halt

namespace Meets

variable {α β : Type} {compute : Eval α} {next : α → Eval β} {state : State}
  {given other : α → State → Prop} {result : β → State → Prop} {halts more : Halt → Prop}

/-- A value that is given meets what is claimed of values. -/
theorem of_gives (meets : Meets compute state given halts) {value : α} {after : State}
    (ended : Gives compute state value after) : given value after := by
  unfold Meets at meets
  rwa [show compute state = .ok value after from ended] at meets

/-- A sequence meets what its last step meets in the states that the first one leads to. -/
theorem bind (first : Meets compute state given halts)
    (rest : ∀ value after, Gives compute state value after → given value after →
      Meets (next value) after result halts) : Meets (compute >>= next) state result halts := by
  unfold Meets at first
  cases ended : compute state with
  | ok value after =>
      rw [ended] at first
      unfold Meets
      rw [bind_of_ok ended]
      exact rest value after ended first
  | error halt after =>
      rw [ended] at first
      unfold Meets
      rw [bind_of_error ended]
      exact first

theorem pure {value : α} (holds : given value state) :
    Meets (pure value : Eval α) state given halts := holds

theorem throw {halt : Halt} (holds : halts halt) : Meets (throw halt : Eval α) state given halts :=
  holds

/-- A computation meets what follows from what it meets. -/
theorem weaken (meets : Meets compute state given halts)
    (values : ∀ value after, given value after → other value after)
    (stops : ∀ halt, halts halt → more halt) : Meets compute state other more := by
  unfold Meets at *
  split
  next ended =>
    rw [ended] at meets
    exact values _ _ meets
  next ended =>
    rw [ended] at meets
    exact stops _ meets

end Meets

section
variable (context : Context)

/-- A run halts for lack of fuel, at an operation that does not apply to its operands, at output
that cannot be written, or at an access without a distance to a name that is no global one. -/
inductive Explained (moment : Moment) : Halt → Prop
  | outOfFuel : Explained moment .outOfFuel
  | type {error : Located Error} (category : error.item.category = .type) :
      Explained moment (.error error)
  | output {file : String} {span : Span} : Explained moment (.error ⟨.writeFailed file, span⟩)
  | access {fuel : Nat} {env : Env} {target : Occurrence} {state : State}
      (reached : Reaches context moment ⟨fuel, .access env target, state⟩)
      (missing : context.distances[target.id]? = none)
      (unbound : state.store.read? context.globals.frame target.name = none) :
      Explained moment (.error ⟨.notDefined target.name, target.span⟩)

/-- What explains the halt of a part explains the halt of the whole. -/
theorem Explained.of_part {moment part : Moment} {halt : Halt}
    (leads : Part context moment part) (explained : Explained context part halt) :
    Explained context moment halt := by
  cases explained with
  | outOfFuel => exact .outOfFuel
  | type category => exact .type category
  | output => exact .output
  | access reached missing unbound => exact .access (.head leads reached) missing unbound

/-- The frames of an environment fit the open scopes at the start of a computation. -/
structure Placed (state : State) (env : Env) (scopes : List Scope) : Prop where
  store : ValidStore context state.store
  fits : Fits context.globals.frame state.store env.frames scopes

/-- A moment is ready when its store is valid, the frames that it sees fit some open scopes, and
the distances agree with the visits of what it works on under these scopes. -/
def Ready (scopes : List Scope) (moment : Moment) : Prop :=
  match moment.task with
  | .expr env expr => Placed context moment.state env scopes ∧
      Agrees context.distances (visitExpr scopes expr)
  | .exprs env exprs => Placed context moment.state env scopes ∧
      Agrees context.distances (visitExprs scopes exprs)
  | .option env given => Placed context moment.state env scopes ∧
      Agrees context.distances (visitOption scopes given)
  | .call callee given _ => ValidStore context moment.state.store ∧
      Valid context moment.state.store callee ∧
      ∀ value ∈ given, Valid context moment.state.store value
  | .stmt env stmt => Placed context moment.state env scopes ∧
      (∀ scope ∈ scopes, Settled scope) ∧ stmt.Proper ∧
      ∃ inFunction, Agrees context.distances (visitStmt scopes inFunction stmt)
  | .loop env condition body => Placed context moment.state env scopes ∧
      (∀ scope ∈ scopes, Settled scope) ∧ (body.declares = false ∧ body.Proper) ∧
      Agrees context.distances (visitExpr scopes condition) ∧
      ∃ inFunction, Agrees context.distances (visitStmt scopes inFunction body)
  | .stmts env stmts => Placed context moment.state env scopes ∧
      (∀ scope ∈ scopes, Settled scope) ∧ Stmt.ProperAll stmts ∧
      ∃ inFunction, Agrees context.distances (visitStmts scopes inFunction stmts)
  | .access env target => Placed context moment.state env scopes ∧
      context.distances[target.id]? = distanceIn? scopes target.name

/-- A computation keeps the store of an earlier state and leaves a valid one. -/
structure Preserves (before after : State) : Prop where
  keeps : Keeps before.store after.store
  store : ValidStore context after.store

/-- A computation gives valid values and preserves the store. -/
def GivesValid (before : State) (value : Value) (after : State) : Prop :=
  Preserves context before after ∧ Valid context after.store value

/-- A statement that completes leaves frames that fit the scopes behind it. -/
def Leaves (before : State) (env : Env) (scopes : List Scope) (flow : Flow) (after : State) :
    Prop :=
  Preserves context before after ∧
    match flow with
    | .completed => Fits context.globals.frame after.store env.frames scopes
    | .returned value => Valid context after.store value

/-- What the work at a moment ends with. -/
def Holds (scopes : List Scope) (moment : Moment) : Prop :=
  match moment.task with
  | .expr env expr => Meets (evalExpr context moment.fuel env expr) moment.state
      (GivesValid context moment.state) (Explained context moment)
  | .exprs env exprs => Meets (evalExprs context moment.fuel env exprs) moment.state
      (fun values after => Preserves context moment.state after ∧
        ∀ value ∈ values, Valid context after.store value) (Explained context moment)
  | .option env given => Meets (evalOption context moment.fuel env given) moment.state
      (GivesValid context moment.state) (Explained context moment)
  | .call callee given span => Meets (call context moment.fuel callee given span) moment.state
      (GivesValid context moment.state) (Explained context moment)
  | .stmt env stmt => Meets (runStmt context moment.fuel env stmt) moment.state
      (Leaves context moment.state env (scopesAfter scopes stmt)) (Explained context moment)
  | .loop env condition body =>
      Meets (runLoop context moment.fuel env condition body) moment.state
        (Leaves context moment.state env scopes) (Explained context moment)
  | .stmts env stmts => Meets (runStmts context moment.fuel env stmts) moment.state
      (Leaves context moment.state env (scopesAfterAll scopes stmts)) (Explained context moment)
  | .access _ _ => True

/-- The work at a moment ends as expected, and it leads to parts that are ready. -/
structure Sound (scopes : List Scope) (moment : Moment) : Prop where
  holds : Holds context scopes moment
  parts : ∀ part, Part context moment part → ∃ inner, Ready context inner part

/-- All work with an amount of fuel that is ready ends as expected. -/
def HoldsAt (fuel : Nat) : Prop :=
  ∀ ⦃scopes : List Scope⦄ ⦃task : Task⦄ ⦃state : State⦄, Ready context scopes ⟨fuel, task, state⟩ →
    Holds context scopes ⟨fuel, task, state⟩

end

section
variable {context : Context} {scopes : List Scope} {env : Env} {state middle after : State}
  {moment : Moment}

/-- A statement is sound when its run meets what it leaves. -/
theorem holds_stmt {fuel : Nat} {stmt : Stmt} :
    Holds context scopes ⟨fuel, .stmt env stmt, state⟩ ↔
      Meets (runStmt context fuel env stmt) state
        (Leaves context state env (scopesAfter scopes stmt))
        (Explained context ⟨fuel, .stmt env stmt, state⟩) := Iff.rfl

theorem Preserves.refl (valid : ValidStore context state.store) : Preserves context state state :=
  ⟨.refl _, valid⟩

/-- Validity is preserved in steps. -/
theorem Preserves.trans (first : Preserves context state middle)
    (second : Preserves context middle after) : Preserves context state after :=
  ⟨first.keeps.trans second.keeps, second.store⟩

/-- An environment stays placed when validity is preserved. -/
theorem Placed.keep (placed : Placed context state env scopes)
    (preserves : Preserves context state after) : Placed context after env scopes :=
  ⟨preserves.store, placed.fits.keep preserves.keeps⟩

/-- A value is valid behind a step that preserves validity. -/
theorem GivesValid.behind {value : Value} (preserves : Preserves context state middle)
    (gives : GivesValid context middle value after) : GivesValid context state value after :=
  ⟨preserves.trans gives.1, gives.2⟩

/-- What a statement leaves is left behind a step that preserves validity. -/
theorem Leaves.behind {flow : Flow} (preserves : Preserves context state middle)
    (leaves : Leaves context middle env scopes flow after) :
    Leaves context state env scopes flow after :=
  ⟨preserves.trans leaves.1, leaves.2⟩

/-- What a part of some work ends with, seen from the whole. -/
theorem Meets.of_part {α : Type} {compute : Eval α} {given : α → State → Prop} {part : Moment}
    (meets : Meets compute state given (Explained context part))
    (leads : Part context moment part) : Meets compute state given (Explained context moment) :=
  meets.weaken (fun _ _ => id) fun _ => .of_part context leads

/-- What a later part gives, seen from the state before the whole. -/
theorem Meets.gives_behind {compute : Eval Value} {part : Moment}
    (meets : Meets compute middle (GivesValid context middle) (Explained context part))
    (leads : Part context moment part) (preserves : Preserves context state middle) :
    Meets compute middle (GivesValid context state) (Explained context moment) :=
  meets.weaken (fun _ _ => .behind preserves) fun _ => .of_part context leads

/-- What a later part leaves, seen from the state before the whole. -/
theorem Meets.leaves_behind {compute : Eval Flow} {part : Moment}
    (meets : Meets compute middle (Leaves context middle env scopes) (Explained context part))
    (leads : Part context moment part) (preserves : Preserves context state middle) :
    Meets compute middle (Leaves context state env scopes) (Explained context moment) :=
  meets.weaken (fun _ _ => .behind preserves) fun _ => .of_part context leads

/-- An access that is ready finds a frame that binds its name, or it has no distance and its name
is no global one. -/
theorem locate_of_ready {fuel : Nat} {target : Occurrence}
    (ready : Ready context scopes ⟨fuel, .access env target, state⟩) :
    (∃ frame, locate context env target state = .ok frame state ∧
      (state.store.read? frame target.name).isSome) ∨
    (context.distances[target.id]? = none ∧
      state.store.read? context.globals.frame target.name = none ∧
      locate context env target state =
        .error (.error ⟨.notDefined target.name, target.span⟩) state) := by
  obtain ⟨placed, agrees⟩ := ready
  cases found : context.distances[target.id]? with
  | some distance =>
      obtain ⟨frame, given, -, bound⟩ := placed.fits.frame_of_distance (agrees.symm.trans found)
      exact .inl ⟨frame, locate_of_distance found given bound, bound⟩
  | none =>
      have located := locate_of_global env state found placed.store.alone
      cases given : state.store.read? context.globals.frame target.name with
      | some value =>
          rw [given] at located
          exact .inl ⟨context.globals.frame, located, by rw [given]; rfl⟩
      | none =>
          rw [given] at located
          exact .inr ⟨rfl, rfl, located⟩

/-- A read gives a valid value, or its failure is explained. -/
theorem read_meets {fuel : Nat} {target : Occurrence}
    (ready : Ready context scopes ⟨fuel, .access env target, state⟩)
    (leads : Part context moment ⟨fuel, .access env target, state⟩) :
    Meets (read context env target) state (GivesValid context state)
      (Explained context moment) := by
  unfold read Meets
  have valid : ValidStore context state.store := ready.1.store
  rcases locate_of_ready ready with ⟨frame, located, bound⟩ | ⟨missing, unbound, halted⟩
  · rw [bind_of_ok located, bind_of_ok (get_apply state)]
    obtain ⟨value, given⟩ := Option.isSome_iff_exists.1 bound
    simp only [Store.readIn, given]
    exact ⟨.refl valid, valid.values given⟩
  · rw [bind_of_error halted]
    exact Explained.of_part context leads (.access .refl missing unbound)

/-- An assignment keeps the store valid, or its failure is explained. -/
theorem assign_meets {fuel : Nat} {target : Occurrence} {value : Value}
    (ready : Ready context scopes ⟨fuel, .access env target, state⟩)
    (leads : Part context moment ⟨fuel, .access env target, state⟩)
    (valid : Valid context state.store value) :
    Meets (assign context env target value) state (fun _ after => GivesValid context state value after)
      (Explained context moment) := by
  unfold assign Meets
  have store : ValidStore context state.store := ready.1.store
  rcases locate_of_ready ready with ⟨frame, located, bound⟩ | ⟨missing, unbound, halted⟩
  · rw [bind_of_ok located]
    have keeps := Keeps.write state.store frame target.name value
    exact ⟨⟨keeps, store.write _ _ (valid.keep keeps)⟩, valid.keep keeps⟩
  · rw [bind_of_error halted]
    exact Explained.of_part context leads (.access .refl missing unbound)

/-- An operator with one operand gives a valid value or an explained error. -/
theorem applyUnary_meets {before : State} {op : Located UnaryOp} {operand : Value}
    (preserves : Preserves context before state) :
    Meets (applyUnary op operand) state (GivesValid context before) (Explained context moment) := by
  unfold applyUnary
  split
  next value applied =>
    refine .pure ⟨preserves, valid_of_not_closure fun closure same => ?_⟩
    subst same
    unfold ValueIn.applyUnary? at applied
    split at applied <;> cases applied
  next => exact .throw (.type rfl)

/-- An operator with two operands gives a valid value or an explained error. -/
theorem applyBinary_meets {before : State} {op : Located BinaryOp} {left right : Value}
    (preserves : Preserves context before state) :
    Meets (applyBinary op left right) state (GivesValid context before)
      (Explained context moment) := by
  unfold applyBinary
  split
  next value applied =>
    refine .pure ⟨preserves, valid_of_not_closure fun closure same => ?_⟩
    subst same
    unfold ValueIn.applyBinary? at applied
    split at applied <;> cases applied
  next => exact .throw (.type rfl)

end

end Lox.Evaluation
