import Lox.Proofs.Lexical.Parallel
import Lox.Proofs.Lexical.Represents
import Lox.Proofs.Run.Access

namespace Lox.Lexical

open Lox.Computation Resolution
open Evaluation (Context Coupling Coupled Parallel fail write printLine checkArity notCallable
  applyUnary applyBinary readClock)

section
variable (context : Context)

/-- States are alike when the memory of one represents the store of the other one and they agree in
everything else. -/
structure RelatedStates (world : World) (state : Evaluation.State) (held : State) : Prop where
  memory : Represents context world state.store held.store
  output : state.output = held.output
  closures : state.closures = held.closures
  readings : state.readings = held.readings

/-- Two computations simulate each other when from like states both have results that are related
in a world that has grown, or both halt in the same way with the same output. -/
def Simulates (changing : FrameId → Prop) (world : World) {α β : Type}
    (compute : Evaluation.Eval α) (other : Eval β) (result : World → α → β → Prop) : Prop :=
  ∀ ⦃state held⦄, RelatedStates context world state held →
    match compute state, other held with
    | .ok value after, .ok same stored => ∃ grown, world.Grows changing grown ∧
        RelatedStates context grown after stored ∧ result grown value same
    | .error halt after, .error stop stored => halt = stop ∧ after.output = stored.output
    | _, _ => False

end

section
variable {context : Context} {changing : FrameId → Prop} {world : World} {α β γ δ : Type}
  {compute : Evaluation.Eval α} {other : Eval β} {result : World → α → β → Prop}

/-- A store of frames and a memory are coupled when the memory represents the store. -/
def coupling (context : Context) (changing : FrameId → Prop) :
    Coupling World (Store Lox.Value) Memory :=
  ⟨Represents context, World.Grows changing, .refl, .trans⟩

/-- The coupling of two states says that they are related. -/
theorem coupled_iff {state : Evaluation.State} {held : State} :
    Coupled (coupling context changing) world state held ↔
      RelatedStates context world state held :=
  ⟨fun ⟨memory, output, closures, readings⟩ => ⟨memory, output, closures, readings⟩,
    fun ⟨memory, output, closures, readings⟩ => ⟨memory, output, closures, readings⟩⟩

/-- A simulation is a parallel run under the coupling of the worlds. -/
theorem simulates_iff : Simulates context changing world compute other result ↔
    Parallel (coupling context changing) world compute other result := by
  simp only [Simulates, Parallel, coupled_iff]
  exact forall_congr' fun state => forall_congr' fun held => forall_congr' fun _ => by
    cases compute state <;> cases other held <;> rfl

namespace Simulates

/-- What holds in a world that has grown holds behind what comes first. -/
theorem bind {next : α → Evaluation.Eval γ} {follow : β → Eval δ}
    {final : World → γ → δ → Prop} (first : Simulates context changing world compute other result)
    (rest : ∀ grown value same, world.Grows changing grown → result grown value same →
      Simulates context changing grown (next value) (follow same) final) :
    Simulates context changing world (compute >>= next) (other >>= follow) final :=
  simulates_iff.2 ((simulates_iff.1 first).bind fun grown value same grows given =>
    simulates_iff.1 (rest grown value same grows given))

theorem pure {value : α} {same : β} (holds : result world value same) :
    Simulates context changing world (pure value) (pure same) result :=
  simulates_iff.2 (.pure holds)

theorem throw (halt : Evaluation.Halt) :
    Simulates context changing world (throw halt) (throw halt) result :=
  simulates_iff.2 (.throw halt)

/-- More frames may change and less may be known of the results. -/
theorem weaken {more : FrameId → Prop} {final : World → α → β → Prop}
    (simulates : Simulates context changing world compute other result)
    (within : ∀ frame < world.frames, changing frame → more frame)
    (holds : ∀ grown value same, world.Grows changing grown → result grown value same →
      final grown value same) : Simulates context more world compute other final := by
  intro state held related
  have start := simulates related
  split at start
  next value after same stored ended finished =>
    obtain ⟨grown, grows, kept, given⟩ := start
    exact ⟨grown, grows.weaken within, kept, holds grown value same grows given⟩
  next ended finished =>
    exact start
  next => exact start.elim

/-- A result is turned into another one without any effect. -/
theorem map {final : World → γ → δ → Prop} {f : α → γ} {g : β → δ}
    (simulates : Simulates context changing world compute other result)
    (holds : ∀ grown value same, world.Grows changing grown → result grown value same →
      final grown (f value) (g same)) :
    Simulates context changing world (compute >>= fun value => Pure.pure (f value))
      (other >>= fun same => Pure.pure (g same)) final :=
  simulates.bind fun grown value same grows given => .pure (holds grown value same grows given)

/-- The other result alone is turned into another one. -/
theorem mapOther {final : World → α → δ → Prop} {g : β → δ}
    (simulates : Simulates context changing world compute other result)
    (holds : ∀ grown value same, world.Grows changing grown → result grown value same →
      final grown value (g same)) :
    Simulates context changing world compute (other >>= fun same => Pure.pure (g same)) final := by
  rw [← bind_pure compute]
  exact simulates.map holds

end Simulates

/-- A change of states that keeps them alike. -/
theorem Simulates.modifyGet {change : Evaluation.State → α × Evaluation.State}
    {follow : State → β × State}
    (step : ∀ state held, RelatedStates context world state held →
      ∃ grown, world.Grows changing grown ∧
        RelatedStates context grown (change state).2 (follow held).2 ∧
        result grown (change state).1 (follow held).1) :
    Simulates context changing world (modifyGet change) (modifyGet follow) result := by
  intro state held related
  rw [modifyGet_apply, modifyGet_apply]
  exact step state held related

end

section
variable {context : Context} {changing : FrameId → Prop} {world : World}

theorem checkArity_simulates (name : String) (expected given : Nat) (span : Span) :
    Simulates context changing world (checkArity name expected given span)
      (checkArity name expected given span) (fun _ _ _ => expected = given) :=
  simulates_iff.2 (Evaluation.checkArity_parallel name expected given span)

theorem notCallable_simulates {α β : Type} {result : World → α → β → Prop} {callee : Lox.Value}
    {held : Value} (alike : Related context world callee held) (span : Span) :
    Simulates context changing world (notCallable callee span) (notCallable held span) result :=
  simulates_iff.2 (Evaluation.notCallable_parallel alike.like span)

theorem applyUnary_simulates {operand : Lox.Value} {held : Value}
    (alike : Related context world operand held) (op : Located UnaryOp) :
    Simulates context changing world (applyUnary op operand) (applyUnary op held)
      (Related context) :=
  simulates_iff.2 ((Evaluation.applyUnary_parallel alike.like op).imp fun _ _ _ => .of_like)

theorem applyBinary_simulates {left right : Lox.Value} {other another : Value}
    (first : Related context world left other) (second : Related context world right another)
    (op : Located BinaryOp) :
    Simulates context changing world (applyBinary op left right) (applyBinary op other another)
      (Related context) :=
  simulates_iff.2 ((Evaluation.applyBinary_parallel Related.keeps first.like second.like op).imp
    fun _ _ _ => .of_like)

theorem readClock_simulates :
    Simulates context changing world (readClock context.clock) (readClock context.clock)
      (Related context) :=
  simulates_iff.2 ((Evaluation.readClock_parallel context.clock).imp fun _ _ _ => .of_like)

theorem printLine_simulates {value : Lox.Value} {held : Value}
    (alike : Related context world value held) (span : Span) :
    Simulates context changing world (printLine value span) (printLine held span)
      (fun _ _ _ => True) :=
  simulates_iff.2 (Evaluation.printLine_parallel Related.keeps alike.like span)

/-- A lexical read looks the name up and fails if nothing binds it. -/
theorem read_eq (locals : Locals) (target : Occurrence) (held : State) :
    read locals target held = match held.store.read? locals target.name with
      | some value => .ok value held
      | none => .error (.error ⟨.notDefined target.name, target.span⟩) held := by
  unfold read
  rw [bind_of_ok (get_apply held)]
  cases held.store.read? locals target.name <;> rfl

/-- A lexical assignment writes where the name is bound and fails if nothing binds it. -/
theorem assign_eq (locals : Locals) (target : Occurrence) (value : Value) (held : State) :
    assign locals target value held = match held.store.assign? locals target.name value with
      | some store => .ok () { held with store }
      | none => .error (.error ⟨.notDefined target.name, target.span⟩) held := by
  unfold assign
  rw [bind_of_ok (get_apply held)]
  cases held.store.assign? locals target.name value <;> rfl

section
variable {env : Lox.Env} {scopes : List Scope} {locals : Locals} {target : Occurrence}

/-- A variable is read in its frame, or a global by its name. -/
theorem read_simulates (sees : Sees world env.frames scopes locals)
    (distance : context.distances[target.id]? = distanceIn? scopes target.name) :
    Simulates context changing world (Evaluation.read context env target) (read locals target)
      (Related context) := by
  intro state held related
  have here := sees target.name
  rw [read_eq, Memory.read?]
  cases found : distanceIn? scopes target.name with
  | some steps =>
      simp only [found] at here
      obtain ⟨frame, location, given, placed, listed⟩ := here
      obtain ⟨-, value, same, bound, kept, alike⟩ := related.memory.holds placed
      have located : Evaluation.locate context env target state = .ok frame state :=
        Evaluation.locate_of_distance (distance.trans found) given (by rw [bound]; rfl)
      simp only [Evaluation.read_of_located located bound, listed, kept]
      exact ⟨world, .refl world, related, alike⟩
  | none =>
      simp only [found] at here
      have located := Evaluation.locate_of_global env state (distance.trans found)
        related.memory.alone
      simp only [here]
      cases bound : state.store.read? context.globals.frame target.name with
      | some value =>
          obtain ⟨same, listed, alike⟩ := related.memory.global_of_some bound
          rw [bound] at located
          simp only [Evaluation.read_of_located located bound, listed]
          exact ⟨world, .refl world, related, alike⟩
      | none =>
          rw [bound] at located
          simp only [Evaluation.read, bind_of_error located, related.memory.global_of_none bound]
          exact ⟨trivial, related.output⟩

/-- A variable is assigned in its frame, or a global by its name. -/
theorem assign_simulates {value : Lox.Value} {held : Value}
    (sees : Sees world env.frames scopes locals)
    (distance : context.distances[target.id]? = distanceIn? scopes target.name)
    (alike : Related context world value held) :
    Simulates context changing world (Evaluation.assign context env target value)
      (assign locals target held) (fun _ _ _ => True) := by
  intro state stored related
  have here := sees target.name
  rw [assign_eq, Memory.assign?]
  cases found : distanceIn? scopes target.name with
  | some steps =>
      simp only [found] at here
      obtain ⟨frame, location, given, placed, listed⟩ := here
      obtain ⟨-, old, -, bound, -, -⟩ := related.memory.holds placed
      have located : Evaluation.locate context env target state = .ok frame state :=
        Evaluation.locate_of_distance (distance.trans found) given (by rw [bound]; rfl)
      simp only [Evaluation.assign_of_located located, listed]
      exact ⟨world, .refl world, { related with memory := related.memory.assign placed alike },
        trivial⟩
  | none =>
      simp only [found] at here
      have located := Evaluation.locate_of_global env state (distance.trans found)
        related.memory.alone
      simp only [here, Bindings.binds]
      cases bound : state.store.read? context.globals.frame target.name with
      | some old =>
          obtain ⟨same, listed, -⟩ := related.memory.global_of_some bound
          rw [bound] at located
          simp only [Evaluation.assign_of_located located, listed, Option.isSome_some, ↓reduceIte]
          exact ⟨world, .refl world,
            { related with memory := related.memory.writeGlobal alike target.name }, trivial⟩
      | none =>
          rw [bound] at located
          simp only [Evaluation.assign, bind_of_error located,
            related.memory.global_of_none bound]
          exact ⟨rfl, related.output⟩

end

end

end Lox.Lexical
