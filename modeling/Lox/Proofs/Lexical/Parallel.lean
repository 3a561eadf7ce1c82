import Lox.Evaluation
import Lox.Proofs.Computation
import Lox.Proofs.Lexical.Values

namespace Lox.Evaluation

open Lox.Computation

/-- A coupling says when two stores hold the same, as far as a world tells, and how worlds grow. -/
structure Coupling (ω μ ν : Type) where
  stores : ω → μ → ν → Prop
  grows : ω → ω → Prop
  refl : ∀ world, grows world world
  trans : ∀ {before middle after}, grows before middle → grows middle after → grows before after

section
variable {ω μ ν α β γ δ ε ζ : Type} (coupling : Coupling ω μ ν)

/-- States are coupled when their stores are and they agree in everything else. -/
structure Coupled (world : ω) (state : StateOf μ) (other : StateOf ν) : Prop where
  store : coupling.stores world state.store other.store
  output : state.output = other.output
  closures : state.closures = other.closures
  readings : state.readings = other.readings

/-- Two computations are parallel when from coupled states both have results that are related in a
world that has grown, or both halt in the same way with the same output. -/
def Parallel (world : ω) (compute : EvalOf μ α) (other : EvalOf ν β)
    (result : ω → α → β → Prop) : Prop :=
  ∀ ⦃state held⦄, Coupled coupling world state held →
    match compute state, other held with
    | .ok value after, .ok same stored => ∃ grown, coupling.grows world grown ∧
        Coupled coupling grown after stored ∧ result grown value same
    | .error halt after, .error stop stored => halt = stop ∧ after.output = stored.output
    | _, _ => False

variable {coupling} {world : ω} {compute : EvalOf μ α} {other : EvalOf ν β}
  {result : ω → α → β → Prop}

namespace Parallel

/-- What holds in a world that has grown holds behind what comes first. -/
theorem bind {next : α → EvalOf μ γ} {follow : β → EvalOf ν δ} {final : ω → γ → δ → Prop}
    (first : Parallel coupling world compute other result)
    (rest : ∀ grown value same, coupling.grows world grown → result grown value same →
      Parallel coupling grown (next value) (follow same) final) :
    Parallel coupling world (compute >>= next) (other >>= follow) final := by
  intro state held related
  have start := first related
  split at start
  next value after same stored ended finished =>
    obtain ⟨grown, grows, kept, given⟩ := start
    have behind := rest grown value same grows given kept
    rw [bind_of_ok ended, bind_of_ok finished]
    split at behind
    next last =>
      obtain ⟨final, growsOn, keptOn, holds⟩ := behind
      exact ⟨final, coupling.trans grows growsOn, keptOn, holds⟩
    next => exact behind
    next => exact behind
  next halt after stop stored ended finished =>
    rw [bind_of_error ended, bind_of_error finished]
    exact start
  next => exact start.elim

theorem pure {value : α} {same : β} (holds : result world value same) :
    Parallel coupling world (pure value) (pure same) result :=
  fun _ _ related => ⟨world, coupling.refl world, related, holds⟩

theorem throw (halt : Halt) : Parallel coupling world (throw halt) (throw halt) result :=
  fun _ _ related => ⟨rfl, related.output⟩

theorem fail (error : Error) (span : Span) :
    Parallel coupling world (fail error span) (fail error span) result :=
  .throw _

/-- A result is turned into another one without any effect. -/
theorem map {final : ω → γ → δ → Prop} {f : α → γ} {g : β → δ}
    (parallel : Parallel coupling world compute other result)
    (holds : ∀ grown value same, coupling.grows world grown → result grown value same →
      final grown (f value) (g same)) :
    Parallel coupling world (compute >>= fun value => Pure.pure (f value))
      (other >>= fun same => Pure.pure (g same)) final :=
  parallel.bind fun grown value same grows given => .pure (holds grown value same grows given)

/-- What holds of the results may be weakened. -/
theorem imp {final : ω → α → β → Prop}
    (parallel : Parallel coupling world compute other result)
    (holds : ∀ grown value same, result grown value same → final grown value same) :
    Parallel coupling world compute other final := by
  rw [← bind_pure compute, ← bind_pure other]
  exact parallel.map fun grown value same _ => holds grown value same

/-- A change of states that keeps them coupled. -/
theorem modifyGet {change : StateOf μ → α × StateOf μ} {follow : StateOf ν → β × StateOf ν}
    (step : ∀ state held, Coupled coupling world state held →
      ∃ grown, coupling.grows world grown ∧
        Coupled coupling grown (change state).2 (follow held).2 ∧
        result grown (change state).1 (follow held).1) :
    Parallel coupling world (modifyGet change) (modifyGet follow) result := by
  intro state held related
  rw [modifyGet_apply, modifyGet_apply]
  exact step state held related

end Parallel

/-- The check of the number of arguments passes on both sides or on neither one. -/
theorem checkArity_parallel (name : String) (expected given : Nat) (span : Span) :
    Parallel coupling world (checkArity name expected given span)
      (checkArity name expected given span) (fun _ _ _ => expected = given) := by
  unfold checkArity
  split
  next same => exact .pure same
  next => exact .fail _ _

/-- Both sides write the same bytes, and complete the write together. -/
theorem write_parallel (text : String) :
    Parallel coupling world (write text) (write text)
      (fun _ complete same => complete = same) := by
  refine .modifyGet fun state held related => ⟨world, coupling.refl world, ?_, ?_⟩
  · exact { related with output := by rw [related.output] }
  · rw [related.output]

section
variable {closures : ω → ClosureIn ε → ClosureIn ζ → Prop}

theorem readClock_parallel (clock : Nat → Float) :
    Parallel coupling world (readClock clock) (readClock clock)
      (fun grown => ValueIn.Like (closures grown)) := by
  refine .modifyGet fun state held related => ⟨world, coupling.refl world, ?_, ?_⟩
  · exact { related with readings := congrArg (· + 1) related.readings }
  · rw [related.readings]
    exact .number _

variable {value left right : ValueIn ε} {held another further : ValueIn ζ}

/-- Like values that cannot be called fail with the same message. -/
theorem notCallable_parallel (alike : ValueIn.Like (closures world) value held) (span : Span) :
    Parallel coupling world (notCallable value span) (notCallable held span) result := by
  unfold notCallable
  rw [alike.type]
  exact .fail _ _

/-- An operator gives like results of like operands. -/
theorem applyUnary_parallel (alike : ValueIn.Like (closures world) value held)
    (op : Located UnaryOp) :
    Parallel coupling world (applyUnary op value) (applyUnary op held)
      (fun grown => ValueIn.Like (closures grown)) := by
  have values := alike.applyUnary? op.item
  unfold applyUnary
  rw [alike.type]
  generalize ValueIn.applyUnary? op.item value = given at values
  generalize ValueIn.applyUnary? op.item held = same at values
  cases values with
  | none => exact .fail _ _
  | some alike => exact .pure alike

variable (keeps : ∀ world declared other, closures world declared other →
  declared.id = other.id ∧ declared.name = other.name)
include keeps

/-- An operator gives like results of two pairs of like operands. -/
theorem applyBinary_parallel (first : ValueIn.Like (closures world) left another)
    (second : ValueIn.Like (closures world) right further) (op : Located BinaryOp) :
    Parallel coupling world (applyBinary op left right) (applyBinary op another further)
      (fun grown => ValueIn.Like (closures grown)) := by
  have values := first.applyBinary? (keeps world) second op.item
  unfold applyBinary
  rw [first.type, second.type]
  generalize ValueIn.applyBinary? op.item left right = given at values
  generalize ValueIn.applyBinary? op.item another further = same at values
  cases values with
  | none => exact .fail _ _
  | some alike => exact .pure alike

/-- Like values are printed as the same line. -/
theorem printLine_parallel (alike : ValueIn.Like (closures world) value held) (span : Span) :
    Parallel coupling world (printLine value span) (printLine held span)
      (fun _ _ _ => True) := by
  unfold printLine
  rw [alike.text (keeps world)]
  refine (write_parallel _).bind ?_
  rintro grown complete _ grows rfl
  split
  next => exact .pure trivial
  next => exact .fail _ _

end

end

end Lox.Evaluation
