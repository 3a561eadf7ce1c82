import Lox.Proofs.Label.Relabeling
import Lox.Proofs.Run.Halting

namespace Lox

namespace Bindings

variable {α β : Type}

/-- The same names with other values. -/
def mapValues (f : α → β) (bindings : Bindings α) : Bindings β :=
  bindings.map fun binding => (binding.1, f binding.2)

/-- A name has the mapped value. -/
theorem value?_mapValues (f : α → β) (bindings : Bindings α) (name : String) :
    (bindings.mapValues f).value? name = (bindings.value? name).map f := by
  induction bindings with
  | nil => rfl
  | cons binding rest ih =>
      obtain ⟨bound, value⟩ := binding
      by_cases same : bound = name
      · simp [mapValues, value?, same]
      · simpa [mapValues, value?, same] using ih

/-- A mapped value is put as a value is put and mapped. -/
theorem put_mapValues (f : α → β) (bindings : Bindings α) (name : String) (value : α) :
    (bindings.mapValues f).put name (f value) = mapValues f (bindings.put name value) := by
  induction bindings with
  | nil => rfl
  | cons binding rest ih =>
      obtain ⟨bound, old⟩ := binding
      by_cases same : bound = name
      · simp [mapValues, put, same]
      · simpa [mapValues, put, same] using ih

end Bindings

namespace Store

variable {α β : Type} (f : α → β) (store : Store α)

/-- The same frames with other values. -/
def mapValues : Store β := ⟨store.frames.map (Bindings.mapValues f)⟩

/-- A frame of the mapped store holds the mapped value. -/
theorem read?_mapValues (frame : FrameId) (name : String) :
    (store.mapValues f).read? frame name = (store.read? frame name).map f := by
  simp only [read?, mapValues, Array.getElem?_map]
  cases store.frames[frame]? with
  | none => rfl
  | some bindings => exact Bindings.value?_mapValues f bindings name

/-- A write of a mapped value is a write that is mapped. -/
theorem write_mapValues (frame : FrameId) (name : String) (value : α) :
    (store.mapValues f).write frame name (f value) = mapValues f (store.write frame name value) := by
  simp only [write, mapValues]
  congr 1
  apply Array.ext
  · simp
  · intro index _ _
    simp only [Array.getElem_modify, Array.getElem_map]
    split
    · exact Bindings.put_mapValues f _ name value
    · rfl

/-- A new frame is empty before and after the values are mapped. -/
theorem push_mapValues : (store.mapValues f).push = mapValues f store.push := by
  simp only [push, mapValues, Array.map_push]
  rfl

/-- A child of an environment does not depend on the values. -/
theorem child_mapValues (env : Env) :
    (store.mapValues f).child env = ((store.child env).1, mapValues f (store.child env).2) := by
  simp only [child, push_mapValues]
  simp only [mapValues, Array.size_map]

/-- What is read from a mapped store is what is read from the store, and mapped. -/
theorem readIn_mapValues (frame : FrameId) (name : String) :
    (store.mapValues f).readIn frame name = (store.readIn frame name).map f := by
  simp only [readIn, read?_mapValues]
  cases store.read? frame name <;> rfl

end Store

namespace Relabeling

open Evaluation Lox.Computation

variable (relabeling : Relabeling)

/-- A closure whose body has other labels. -/
def value : Value → Value
  | .closure declared => .closure { declared with body := relabeling.stmts declared.body }
  | .nil => .nil
  | .bool value => .bool value
  | .number value => .number value
  | .string content => .string content
  | .native provided => .native provided

def state (given : State) : State := { given with store := given.store.mapValues relabeling.value }

def halt : Halt → Halt
  | .error error => .error (relabeling.located error)
  | .lostScope name => .lostScope name
  | .outOfFuel => .outOfFuel

def flow : Flow → Flow
  | .completed => .completed
  | .returned value => .returned (relabeling.value value)

section
variable (given : Value)

/-- A value is printed without its labels. -/
@[simp] theorem value_text : (relabeling.value given).text = given.text := by cases given <;> rfl

/-- Labels do not change the type of a value. -/
@[simp] theorem value_type : (relabeling.value given).type = given.type := by cases given <;> rfl

/-- Labels do not change the truth of a value. -/
@[simp] theorem value_isTrue : (relabeling.value given).isTrue = given.isTrue := by
  cases given <;> rfl

/-- A value can be called whatever its labels are. -/
@[simp] theorem value_isCallable : (relabeling.value given).isCallable = given.isCallable := by
  cases given <;> rfl

/-- A value decides a logical operator whatever its labels are. -/
@[simp] theorem value_isDecidedBy (op : LogicalOp) :
    op.isDecidedBy (relabeling.value given) = op.isDecidedBy given := by
  cases op <;> simp [LogicalOp.isDecidedBy]

/-- The value of a literal has no labels. -/
theorem value_ofLiteral (literal : Literal) :
    relabeling.value (.ofLiteral literal) = .ofLiteral literal := by
  cases literal <;> rfl

/-- An operator gives the same of an operand with other labels. -/
theorem applyUnary?_value (op : UnaryOp) :
    ValueIn.applyUnary? op (relabeling.value given) =
      (ValueIn.applyUnary? op given).map relabeling.value := by
  cases op <;> cases given <;> rfl

/-- An operator gives the same of two operands with other labels. -/
theorem applyBinary?_value (op : BinaryOp) (other : Value) :
    ValueIn.applyBinary? op (relabeling.value given) (relabeling.value other) =
      (ValueIn.applyBinary? op given other).map relabeling.value := by
  cases op <;> cases given <;> cases other <;> rfl

end

/-- The end of a computation with other labels. -/
def result {α β : Type} (f : α → β) :
    EStateM.Result Halt State α → EStateM.Result Halt State β
  | .ok value after => .ok (f value) (relabeling.state after)
  | .error stop after => .error (relabeling.halt stop) (relabeling.state after)

/-- A computation carries over to another one that ends in the same way with other labels. -/
def Carries {α β : Type} (f : α → β) (compute : Eval α) (other : Eval β) : Prop :=
  ∀ given, other (relabeling.state given) = relabeling.result f (compute given)

/-- Two contexts accord when occurrences have the same distances under their new numbers. -/
structure Accords (context other : Context) : Prop where
  globals : other.globals = context.globals
  clock : other.clock = context.clock
  distances : ∀ id, other.distances[relabeling.ids id]? = context.distances[id]?

section
variable {relabeling}

namespace Carries

variable {α β γ δ : Type} {f : α → β} {g : γ → δ} {compute : Eval α} {other : Eval β}
  {next : α → Eval γ} {follow : β → Eval δ}

theorem pure {value : α} {same : β} (carried : f value = same) :
    Carries relabeling f (pure value : Eval α) (pure same) := by
  subst carried
  exact fun _ => rfl

theorem throw {stop same : Halt} (carried : relabeling.halt stop = same) :
    Carries relabeling f (throw stop : Eval α) (throw same) := by
  subst carried
  exact fun _ => rfl

theorem bind (first : Carries relabeling f compute other)
    (rest : ∀ value, Carries relabeling g (next value) (follow (f value))) :
    Carries relabeling g (compute >>= next) (other >>= follow) := by
  intro given
  have started := first given
  cases ended : compute given with
  | ok value after =>
      rw [ended] at started
      rw [bind_of_ok ended, bind_of_ok started]
      exact rest value after
  | error stop after =>
      rw [ended] at started
      rw [bind_of_error ended, bind_of_error started]
      rfl

/-- A change of the state carries labels over if it does so in every state. -/
theorem modifyGet {change : State → α × State} {otherChange : State → β × State}
    (same : ∀ state, otherChange (relabeling.state state) =
      (f (change state).1, relabeling.state (change state).2)) :
    Carries relabeling f (modifyGet change : Eval α) (modifyGet otherChange) := by
  intro given
  rw [modifyGet_apply, modifyGet_apply, same]
  rfl

end Carries

/-- A halt of the one side is a halt of the other one. -/
theorem Carries.error {α β : Type} {f : α → β} {compute : Eval α} {other : Eval β}
    (carries : Carries relabeling f compute other) {given after : State} {stop : Halt}
    (failed : compute given = .error stop after) :
    other (relabeling.state given) = .error (relabeling.halt stop) (relabeling.state after) := by
  have same := carries given
  rwa [failed] at same

/-- A failure has the same error at the other span. -/
theorem fail_carries {α β : Type} {f : α → β} (error : Error) (span : Span) :
    Carries relabeling f (fail error span) (fail error (relabeling.spans span)) := .throw rfl

/-- A closure is made with the other labels in its body. -/
theorem makeClosure_carries {env : Env} {name : Name} {parameters : List Name} {body : List Stmt} :
    Carries relabeling relabeling.value (makeClosure env name parameters body)
      (makeClosure env (relabeling.located name) (parameters.map relabeling.located)
        (relabeling.stmts body)) := by
  apply Carries.modifyGet
  intro state
  simp only [located, List.map_map]
  rfl

/-- A printed line does not depend on labels. -/
theorem printLine_carries {given : Value} {span : Span} :
    Carries relabeling id (printLine given span)
      (printLine (relabeling.value given) (relabeling.spans span)) := by
  unfold printLine write
  rw [value_text]
  apply Carries.bind (f := id) (.modifyGet fun _ => rfl)
  intro complete
  cases complete
  · exact fail_carries _ span
  · exact .pure rfl

/-- The check of the number of arguments does not depend on labels. -/
theorem checkArity_carries {name : String} {expected given : Nat} {span : Span} :
    Carries relabeling id (checkArity name expected given span)
      (checkArity name expected given (relabeling.spans span)) := by
  unfold checkArity
  split
  · exact .pure rfl
  · exact fail_carries _ span

/-- A value that cannot be called fails with the other labels, too. -/
theorem notCallable_carries {callee : Value} {span : Span} :
    Carries relabeling relabeling.value (notCallable callee span)
      (notCallable (relabeling.value callee) (relabeling.spans span)) := by
  unfold notCallable
  rw [value_type]
  exact fail_carries _ span

/-- An operator with one operand carries labels over. -/
theorem applyUnary_carries {op : Located UnaryOp} {operand : Value} :
    Carries relabeling relabeling.value (applyUnary op operand)
      (applyUnary (relabeling.located op) (relabeling.value operand)) := by
  unfold applyUnary
  rw [located, applyUnary?_value, value_type]
  cases ValueIn.applyUnary? op.item operand with
  | some value => exact .pure rfl
  | none => exact fail_carries _ op.span

/-- An operator with two operands carries labels over. -/
theorem applyBinary_carries {op : Located BinaryOp} {left right : Value} :
    Carries relabeling relabeling.value (applyBinary op left right)
      (applyBinary (relabeling.located op) (relabeling.value left) (relabeling.value right)) := by
  unfold applyBinary
  rw [located, applyBinary?_value, value_type, value_type]
  cases ValueIn.applyBinary? op.item left right with
  | some value => exact .pure rfl
  | none => exact fail_carries _ op.span

/-- The clock does not depend on labels. -/
theorem readClock_carries {clock : Nat → Float} :
    Carries relabeling relabeling.value (readClock clock) (readClock clock) :=
  .modifyGet fun _ => rfl

/-- A nested environment does not depend on labels. -/
theorem nest_carries {env : Env} : Carries relabeling id (nest env) (nest env) := by
  apply Carries.modifyGet
  intro given
  simp only [state, Store.child_mapValues]
  rfl

/-- A value is defined with its other labels. -/
theorem define_carries {env : Env} {name : String} {given : Value} :
    Carries relabeling id (define env name given) (define env name (relabeling.value given)) := by
  apply Carries.modifyGet
  intro before
  simp only [state, Store.define, Store.write_mapValues]

/-- A closure is entered with the other labels in its body. -/
theorem enter_carries {declared : Closure} {given : List Value} :
    Carries relabeling id (enter declared given)
      (enter { declared with body := relabeling.stmts declared.body }
        (given.map relabeling.value)) := by
  apply nest_carries.bind
  intro env
  refine Carries.bind (?_ : Carries relabeling id _ _) fun _ => .pure rfl
  simp only [List.zip_map_right]
  induction declared.parameters.zip given with
  | nil => exact .pure rfl
  | cons binding rest ih => exact define_carries.bind fun _ => ih

end

section
variable {relabeling} {context other : Context} (accords : Accords relabeling context other)
include accords

/-- A variable is found in the same frame if the tables agree. -/
theorem locate_carries {env : Env} {target : Occurrence} :
    Carries relabeling id (locate context env target)
      (locate other env (relabeling.occurrence target)) := by
  intro given
  rw [locate_eq, locate_eq]
  have same : frameFor other env (relabeling.occurrence target) (relabeling.state given).store =
      frameFor context env target given.store := by
    simp only [frameFor, occurrence, accords.distances, accords.globals, Store.frameAt,
      Store.frameOf, state, Store.read?_mapValues, Option.isSome_map]
  rw [same]
  cases frameFor context env target given.store with
  | ok frame => rfl
  | error fault => cases fault <;> rfl

/-- A variable is read with the other labels of its value. -/
theorem read_carries {env : Env} {target : Occurrence} :
    Carries relabeling relabeling.value (read context env target)
      (read other env (relabeling.occurrence target)) := by
  apply (locate_carries accords).bind
  intro frame given
  rw [bind_of_ok (get_apply _), bind_of_ok (get_apply _)]
  have same : (relabeling.state given).store.readIn (id frame) (relabeling.occurrence target).name =
      (given.store.readIn frame target.name).map relabeling.value :=
    Store.readIn_mapValues _ _ _ _
  rw [same]
  cases given.store.readIn frame target.name with
  | ok value => rfl
  | error fault => cases fault <;> rfl

/-- A variable is assigned the value with the other labels. -/
theorem assign_carries {env : Env} {target : Occurrence} {given : Value} :
    Carries relabeling id (assign context env target given)
      (assign other env (relabeling.occurrence target) (relabeling.value given)) := by
  apply (locate_carries accords).bind
  intro frame
  apply Carries.modifyGet
  intro before
  simp only [state, occurrence, id, Store.write_mapValues]

end

end Relabeling

end Lox
