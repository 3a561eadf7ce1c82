import Lox.Proofs.Layout.Ordering
import Lox.Proofs.Run.Halting
import Lox.Proofs.Run.Validity
import Lox.Proofs.Store.Parents

namespace Lox.Evaluation

open Lox.Computation

/-- A statement declares a name in its scope. -/
def Declares (stmt : Stmt) (name : String) : Prop :=
  ∃ declared, stmt.name? = some declared ∧ declared.item = name

/-- The frames that a closure sees follow the parents, and its body is proper. -/
structure LinkedClosure (parents : Parents) (closure : Closure) : Prop where
  follows : parents.Follows closure.env.frames
  proper : Stmt.ProperAll closure.body

/-- A value is linked when it is no closure or a linked one. -/
def LinkedValue (parents : Parents) (value : Value) : Prop :=
  ∀ ⦃closure⦄, value = .closure closure → LinkedClosure parents closure

/-- Every frame of a store has its parent, and all closures in the store are linked. -/
structure LinkedStore (parents : Parents) (store : Store Value) : Prop where
  size : parents.length = store.frames.size
  values : ∀ ⦃frame : FrameId⦄ ⦃name : String⦄ ⦃value : Value⦄,
    store.read? frame name = some value → LinkedValue parents value

/-- A value that is no closure needs no frames. -/
theorem linkedValue_of_not_closure {parents : Parents} {value : Value}
    (other : ∀ closure, value ≠ .closure closure) : LinkedValue parents value :=
  fun closure same => absurd same (other closure)

theorem linkedValue_nil {parents : Parents} : LinkedValue parents .nil := by
  intro closure same
  cases same

/-- A value stays linked when frames are added. -/
theorem LinkedValue.later {parents later : Parents} {value : Value}
    (linked : LinkedValue parents value) (grown : parents <+: later) :
    LinkedValue later value := by
  obtain ⟨more, rfl⟩ := grown
  exact fun closure same => ⟨(linked same).follows.append more, (linked same).proper⟩

/-- A chain follows the parents when frames are added. -/
theorem follows_later {parents later : Parents} {frames : List FrameId}
    (follows : parents.Follows frames) (grown : parents <+: later) : later.Follows frames := by
  obtain ⟨more, rfl⟩ := grown
  exact follows.append more

namespace LinkedStore

variable {parents : Parents} {store : Store Value}

/-- A linked value may be written anywhere. -/
theorem write {value : Value} (linked : LinkedStore parents store) (frame : FrameId)
    (name : String) (new : LinkedValue parents value) :
    LinkedStore parents (store.write frame name value) := by
  refine ⟨by simp only [Store.write, Array.size_modify]; exact linked.size, ?_⟩
  by_cases present : frame < store.frames.size
  · intro other query found given
    rw [Store.read?_write store frame other name query value present] at given
    split at given
    · cases given
      exact new
    · exact linked.values given
  · rw [Store.write_of_absent store frame name value present]
    exact linked.values

/-- A new frame has a parent or none. -/
theorem push (linked : LinkedStore parents store) (parent : Option FrameId) :
    LinkedStore (parents ++ [parent]) store.push := by
  refine ⟨by simp [Store.push, linked.size], fun frame name value given => ?_⟩
  rw [Store.read?_push] at given
  exact (linked.values given).later (List.prefix_append ..)

end LinkedStore

section
variable (may : FrameId → Stmt → Prop)

/-- In a frame that is not there yet, every statement may declare its name. -/
def Spares (parents : Parents) : Prop := ∀ frame stmt, parents.length ≤ frame → may frame stmt

/-- Every frame keeps its parent and its names, and a frame that was there binds a new name only
if a statement may declare the name in it. -/
structure Grown (parents : Parents) (before : Store Value) (later : Parents)
    (after : Store Value) : Prop where
  older : parents <+: later
  keeps : Keeps before after
  gains : ∀ ⦃frame : FrameId⦄, frame < parents.length → ∀ ⦃name : String⦄,
    (after.read? frame name).isSome → (before.read? frame name).isSome ∨
      ∃ stmt, may frame stmt ∧ Declares stmt name
  linked : LinkedStore later after

/-- A computation declares names only where it may, whichever way it ends. -/
def Confines {α : Type} (parents : Parents) (compute : Eval α) (fits : Parents → α → Prop) :
    Prop :=
  ∀ ⦃state : State⦄, LinkedStore parents state.store →
    match compute state with
    | .ok value after => ∃ later, Grown may parents state.store later after.store ∧
        fits later value
    | .error _ after => ∃ later, Grown may parents state.store later after.store

end

section
variable {may : FrameId → Stmt → Prop} {parents : Parents} {before after : Store Value}

/-- Frames that are still to come are spared when frames are added. -/
theorem Spares.later {later : Parents} (spares : Spares may parents) (grown : parents <+: later) :
    Spares may later :=
  fun frame stmt beyond => spares frame stmt (Nat.le_trans grown.length_le beyond)

namespace Grown

theorem refl (linked : LinkedStore parents before) : Grown may parents before parents before :=
  ⟨List.prefix_rfl, .refl before, fun _ _ _ given => .inl given, linked⟩

theorem trans {later last : Parents} {ended : Store Value}
    (first : Grown may parents before later after) (second : Grown may later after last ended) :
    Grown may parents before last ended := by
  refine ⟨first.older.trans second.older, first.keeps.trans second.keeps, ?_, second.linked⟩
  intro frame inside name given
  rcases second.gains (Nat.lt_of_lt_of_le inside first.older.length_le) given with known | new
  · exact first.gains inside known
  · exact .inr new

/-- A new frame binds nothing. -/
theorem push (linked : LinkedStore parents before) (parent : Option FrameId) :
    Grown may parents before (parents ++ [parent]) before.push :=
  ⟨List.prefix_append .., .push before,
    fun frame _ name given => .inl (by rwa [Store.read?_push] at given), linked.push parent⟩

/-- A write binds at most the name that is written. -/
theorem write {value : Value} (linked : LinkedStore parents before) {frame : FrameId}
    {name : String} (new : LinkedValue parents value)
    (allowed : frame < parents.length →
      (before.read? frame name).isSome ∨ ∃ stmt, may frame stmt ∧ Declares stmt name) :
    Grown may parents before parents (before.write frame name value) := by
  refine ⟨List.prefix_rfl, .write before frame name value, ?_, linked.write frame name new⟩
  intro other inside query given
  by_cases present : frame < before.frames.size
  · rw [Store.read?_write before frame other name query value present] at given
    split at given
    next both =>
      obtain ⟨rfl, rfl⟩ := both
      exact allowed inside
    next => exact .inl given
  · rw [Store.write_of_absent before frame name value present] at given
    exact .inl given

end Grown

namespace Confines

variable {α β : Type} {compute : Eval α} {next : α → Eval β} {fits : Parents → α → Prop}
  {others : Parents → β → Prop}

theorem pure {value : α} (given : fits parents value) :
    Confines may parents (pure value : Eval α) fits :=
  fun _ linked => ⟨parents, .refl linked, given⟩

theorem throw (halt : Halt) : Confines may parents (throw halt : Eval α) fits :=
  fun _ linked => ⟨parents, .refl linked⟩

theorem bind (first : Confines may parents compute fits)
    (rest : ∀ ⦃value later⦄, parents <+: later → fits later value →
      Confines may later (next value) others) :
    Confines may parents (compute >>= next) others := by
  intro state linked
  have started := first linked
  cases ended : compute state with
  | ok value middle =>
      rw [ended] at started
      obtain ⟨later, grown, given⟩ := started
      have followed := rest grown.older given grown.linked
      rw [bind_of_ok ended]
      split
      next same =>
        rw [same] at followed
        obtain ⟨last, further, result⟩ := followed
        exact ⟨last, grown.trans further, result⟩
      next same =>
        rw [same] at followed
        obtain ⟨last, further⟩ := followed
        exact ⟨last, grown.trans further⟩
  | error halt middle =>
      rw [ended] at started
      rw [bind_of_error ended]
      exact started

/-- A step that leaves the store as it is. -/
theorem modifyGet {change : State → α × State}
    (same : ∀ state, (change state).2.store = state.store)
    (given : ∀ state, fits parents (change state).1) :
    Confines may parents (modifyGet change : Eval α) fits := by
  intro state linked
  rw [modifyGet_apply]
  refine ⟨parents, ?_, given state⟩
  rw [same state]
  exact .refl linked

/-- A computation that gives a value has let the store grow. -/
theorem of_gives (confines : Confines may parents compute fits) {state after : State}
    (linked : LinkedStore parents state.store) {value : α} (ended : Gives compute state value after) :
    ∃ later, Grown may parents state.store later after.store ∧ fits later value := by
  have holds := confines linked
  rwa [show compute state = .ok value after from ended] at holds

/-- A computation that halts has let the store grow, too. -/
theorem of_error (confines : Confines may parents compute fits) {state after : State}
    (linked : LinkedStore parents state.store) {halt : Halt}
    (stopped : compute state = .error halt after) :
    ∃ later, Grown may parents state.store later after.store := by
  have holds := confines linked
  rwa [stopped] at holds

end Confines

end

/-- A computation whose result does not matter to the frames. -/
abbrev ConfinesOnly {α : Type} (may : FrameId → Stmt → Prop) (parents : Parents)
    (compute : Eval α) : Prop :=
  Confines may parents compute fun _ _ => True

section
variable {may : FrameId → Stmt → Prop} {parents : Parents} {context : Context} {env : Env}

/-- A closure is linked to the chain in which it is made. -/
theorem makeClosure_confines {name : Name} {parameters : List Name} {body : List Stmt}
    (follows : parents.Follows env.frames) (proper : Stmt.ProperAll body) :
    Confines may parents (makeClosure env name parameters body) LinkedValue := by
  refine .modifyGet (fun _ => rfl) fun state closure same => ?_
  cases same
  exact ⟨follows, proper⟩

theorem readClock_confines {clock : Nat → Float} :
    Confines may parents (readClock clock : Eval Value) LinkedValue :=
  .modifyGet (fun _ => rfl) fun _ => linkedValue_of_not_closure nofun

/-- The frame of a block is new, and its parent is the frame around it. -/
theorem nest_confines (follows : parents.Follows env.frames) :
    Confines may parents (nest env) fun later inner =>
      later.Follows inner.frames ∧ parents.length ≤ inner.frame := by
  intro state linked
  refine ⟨parents ++ [some env.frame], .push linked _, ?_, Nat.le_of_eq linked.size⟩
  have chain := follows.child
  rw [linked.size] at chain
  exact chain

/-- A definition adds the declared name to the innermost frame. -/
theorem define_confines {stmt : Stmt} {name : String} {value : Value}
    (given : LinkedValue parents value) (allowed : may env.frame stmt)
    (declares : Declares stmt name) : ConfinesOnly may parents (define env name value) :=
  fun _ linked => ⟨parents, .write linked given fun _ => .inr ⟨stmt, allowed, declares⟩, trivial⟩

theorem printLine_confines {value : Value} {span : Span} :
    ConfinesOnly may parents (printLine value span) := by
  have written : ConfinesOnly may parents (write (value.text ++ "\n")) :=
    .modifyGet (fun _ => rfl) fun _ => trivial
  apply written.bind
  intro complete later _ _
  split
  · exact .pure trivial
  · exact .throw _

theorem checkArity_confines {name : String} {expected given : Nat} {span : Span} :
    ConfinesOnly may parents (checkArity name expected given span) := by
  unfold checkArity
  split
  · exact .pure trivial
  · exact .throw _

theorem applyUnary_confines {op : Located UnaryOp} {operand : Value} :
    Confines may parents (applyUnary op operand) LinkedValue := by
  unfold applyUnary
  split
  next value applied =>
    refine .pure (linkedValue_of_not_closure fun closure same => ?_)
    cases same
    unfold ValueIn.applyUnary? at applied
    split at applied <;> cases applied
  next => exact .throw _

theorem applyBinary_confines {op : Located BinaryOp} {left right : Value} :
    Confines may parents (applyBinary op left right) LinkedValue := by
  unfold applyBinary
  split
  next value applied =>
    refine .pure (linkedValue_of_not_closure fun closure same => ?_)
    cases same
    unfold ValueIn.applyBinary? at applied
    split at applied <;> cases applied
  next => exact .throw _

/-- Names that are bound in one frame leave the other frames as they are. -/
theorem forM_define_grows (inner : Env) {bindings : List (String × Value)} {state : State}
    (linked : LinkedStore parents state.store)
    (values : ∀ binding ∈ bindings, LinkedValue parents binding.2) :
    ∃ after : State, (bindings.forM fun (name, value) => define inner name value : Eval Unit) state =
        .ok () after ∧
      LinkedStore parents after.store ∧ Keeps state.store after.store ∧
      ∀ frame ≠ inner.frame, ∀ name, after.store.read? frame name = state.store.read? frame name := by
  induction bindings generalizing state with
  | nil => exact ⟨state, rfl, linked, .refl _, fun _ _ _ => rfl⟩
  | cons binding rest ih =>
      obtain ⟨given, further⟩ := List.forall_mem_cons.1 values
      let middle : State :=
        { state with store := state.store.define inner binding.1 binding.2 }
      have bound : define inner binding.1 binding.2 state = .ok () middle := rfl
      have stands : LinkedStore parents middle.store := linked.write _ _ given
      obtain ⟨after, ended, last, keeps, others⟩ := ih stands further
      refine ⟨after, (bind_of_ok bound _).trans ended, last,
        (Keeps.write state.store inner.frame binding.1 binding.2).trans keeps,
        fun frame apart name => ?_⟩
      rw [others frame apart name]
      by_cases present : inner.frame < state.store.frames.size
      · exact (Store.read?_write _ _ _ _ _ _ present).trans (if_neg fun both => apart both.1.symm)
      · exact congrArg (fun store => Store.read? store frame name)
          (Store.write_of_absent _ _ _ _ present)

/-- The parameters of a call are bound in its own frame, which is new. -/
theorem enter_confines {closure : Closure} {given : List Value}
    (linked : LinkedClosure parents closure) (passed : ∀ value ∈ given, LinkedValue parents value) :
    Confines may parents (enter closure given) fun later inner =>
      later.Follows inner.frames ∧ parents.length ≤ inner.frame := by
  have values : ∀ binding ∈ closure.parameters.zip given, LinkedValue parents binding.2 :=
    fun binding among => passed binding.2 (List.of_mem_zip among).2
  intro state standing
  let inner : Env := (state.store.child closure.env).1
  let middle : State := { state with store := state.store.push }
  have fresh : inner.frame = parents.length := standing.size.symm
  have opened : nest closure.env state = .ok inner middle := rfl
  have grown : Grown may parents state.store (parents ++ [some closure.env.frame]) middle.store :=
    .push standing _
  obtain ⟨after, bound, last, keeps, others⟩ :=
    forM_define_grows inner grown.linked fun binding among =>
      (values binding among).later grown.older
  have ended : enter closure given state = .ok inner after := by
    unfold enter
    rw [bind_of_ok opened, bind_of_ok bound]
    rfl
  rw [ended]
  refine ⟨_, ⟨grown.older, grown.keeps.trans keeps, fun frame inside name found => ?_, last⟩,
    ?_, Nat.le_of_eq fresh.symm⟩
  · rw [others frame (fresh ▸ Nat.ne_of_lt inside)] at found
    exact grown.gains inside found
  · have chain := linked.follows.child
    rw [standing.size] at chain
    exact chain

/-- What is read is in the store. -/
theorem read_confines {target : Occurrence} :
    Confines may parents (read context env target) LinkedValue := by
  intro state linked
  unfold read
  cases located : locate context env target state with
  | error halt after =>
      rw [bind_of_error located]
      cases locate_eq_error located
      exact ⟨parents, .refl linked⟩
  | ok frame after =>
      obtain ⟨rfl, bound⟩ := locate_eq_ok located
      obtain ⟨value, found⟩ := Option.isSome_iff_exists.1 bound
      rw [bind_of_ok located, bind_of_ok (get_apply _)]
      simp only [Store.readIn, found]
      exact ⟨parents, .refl linked, linked.values found⟩

/-- An assignment changes a name that is bound already. -/
theorem assign_confines {target : Occurrence} {value : Value}
    (given : LinkedValue parents value) :
    ConfinesOnly may parents (assign context env target value) := by
  intro state linked
  unfold assign
  cases located : locate context env target state with
  | error halt after =>
      rw [bind_of_error located]
      cases locate_eq_error located
      exact ⟨parents, .refl linked⟩
  | ok frame after =>
      obtain ⟨rfl, bound⟩ := locate_eq_ok located
      rw [bind_of_ok located]
      exact ⟨parents, .write linked given fun _ => .inl bound, trivial⟩

end

end Lox.Evaluation
