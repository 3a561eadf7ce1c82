import Lox.Proofs.Run.Halting

namespace Lox

namespace Computation

variable {ε σ α : Type}

/-- The state in which a computation ends. -/
def lastState : EStateM.Result ε σ α → σ
  | .ok _ state => state
  | .error _ state => state

/-- An end of a computation with another state. -/
def mapState (change : σ → σ) : EStateM.Result ε σ α → EStateM.Result ε σ α
  | .ok value state => .ok value (change state)
  | .error halt state => .error halt (change state)

/-- A mapped result ends in the mapped state. -/
@[simp] theorem lastState_mapState (change : σ → σ) (ended : EStateM.Result ε σ α) :
    lastState (mapState change ended) = change (lastState ended) := by
  cases ended <;> rfl

end Computation

namespace Evaluation

open Lox.Computation

/-- No more than the bytes that are there are taken. -/
theorem extract_min (bytes : ByteArray) (limit : Nat) :
    bytes.extract 0 limit = bytes.extract 0 (min limit bytes.size) := by
  have whole := congrArg (fun bytes => bytes.extract 0 limit) (ByteArray.extract_zero_size (b := bytes))
  simpa only [ByteArray.extract_extract, Nat.zero_add] using whole.symm

/-- Bytes that fit are not cut. -/
theorem extract_of_size_le {bytes : ByteArray} {limit : Nat} (fits : bytes.size ≤ limit) :
    bytes.extract 0 limit = bytes := by
  rw [extract_min, Nat.min_eq_right fits, ByteArray.extract_zero_size]

section
variable {μ : Type}

/-- The number of bytes written so far. -/
def StateOf.written (state : StateOf μ) : Nat := state.output.contents.size

/-- The same state with another output. -/
def StateOf.withOutput (output : Sink) (state : StateOf μ) : StateOf μ := { state with output }

/-- The first bytes of an output, in a sink that takes no more of them. -/
def cutOutput (limit : Nat) (output : Sink) : Sink :=
  ⟨output.contents.extract 0 limit, some limit, false⟩

/-- A sink without a limit takes every text whole. -/
theorem write_of_unlimited {output : Sink} (unlimited : output.limit = none) (text : String) :
    output.write text = (true, { output with contents := output.contents ++ text.toUTF8 }) := by
  rw [Sink.write, unlimited]

/-- What is written to a cut output is what is written to the whole one, and cut. -/
theorem write_cutOutput {limit : Nat} {output : Sink} (unlimited : output.limit = none)
    (fits : output.contents.size ≤ limit) (text : String) :
    (cutOutput limit output).write text =
      (decide (output.contents.size + text.utf8ByteSize ≤ limit),
        cutOutput limit (output.write text).2) := by
  have room : text.toUTF8.size ≤ limit - output.contents.size ↔
      output.contents.size + text.utf8ByteSize ≤ limit := by
    change text.utf8ByteSize ≤ _ ↔ _
    omega
  have cut : (output.contents ++ text.toUTF8).extract 0 limit =
      output.contents ++ text.toUTF8.extract 0 (limit - output.contents.size) := by
    rw [ByteArray.extract_append, extract_of_size_le fits, Nat.zero_sub]
  rw [write_of_unlimited unlimited]
  simp only [cutOutput, Sink.write, extract_of_size_le fits, cut, room]
  by_cases within : output.contents.size + text.utf8ByteSize ≤ limit
  · rw [if_pos within, extract_of_size_le (room.2 within), decide_eq_true within]
  · rw [if_neg within, decide_eq_false within]
    rfl

/-- A state whose output is cut. -/
def StateOf.cut (limit : Nat) (state : StateOf μ) : StateOf μ :=
  state.withOutput (cutOutput limit state.output)

/-- An unlimited output goes on with more bytes and stays unlimited. -/
structure Extends (before after : StateOf μ) : Prop where
  unlimited : after.output.limit = none
  contents : ∃ more, after.output.contents = before.output.contents ++ more

namespace Extends

variable {before middle after : StateOf μ}

theorem refl (unlimited : before.output.limit = none) : Extends before before :=
  ⟨unlimited, .empty, ByteArray.append_empty.symm⟩

theorem trans (first : Extends before middle) (second : Extends middle after) :
    Extends before after := by
  obtain ⟨-, more, grown⟩ := first
  obtain ⟨unlimited, others, same⟩ := second
  exact ⟨unlimited, more ++ others, by rw [same, grown, ByteArray.append_assoc]⟩

/-- The output does not shrink. -/
theorem written_le (extended : Extends before after) : before.written ≤ after.written := by
  obtain ⟨-, more, same⟩ := extended
  simp [StateOf.written, same]

/-- The first bytes of an output stay where they are. -/
theorem extract_eq (extended : Extends before after) {limit : Nat} (enough : limit ≤ before.written) :
    after.output.contents.extract 0 limit = before.output.contents.extract 0 limit := by
  obtain ⟨-, more, same⟩ := extended
  have none : limit - before.output.contents.size = 0 := Nat.sub_eq_zero_of_le enough
  rw [same, ByteArray.extract_append, none, Nat.zero_sub, ByteArray.extract_same,
    ByteArray.append_empty]

end Extends

end

section
variable (context : Context)

/-- A run comes to a `print` that writes the byte with an index. -/
def Prints (start : Moment) (index : Nat) (span : Span) : Prop :=
  ∃ fuel env value state given after,
    Reaches context start ⟨fuel + 1, .stmt env (.print span value), state⟩ ∧
      Gives (evalExpr context fuel env value) state given after ∧
      after.written ≤ index ∧ index < after.written + (given.text ++ "\n").utf8ByteSize

/-- What comes of work on an unlimited output if the output is cut instead. Work that fits goes the
same way, and other work breaks off at the statement that prints the first byte too many. -/
structure Cuts (limit : Nat) (moment : Moment) {α : Type} (compute : Eval α) (state : State) :
    Prop where
  grows : Extends state (lastState (compute state))
  whole : (lastState (compute state)).written ≤ limit →
    compute (state.cut limit) = mapState (StateOf.cut limit) (compute state)
  broken : state.written ≤ limit → limit < (lastState (compute state)).written →
    ∃ span last, Prints context moment limit span ∧
      compute (state.cut limit) = .error (.error ⟨.writeFailed "stdout", span⟩) last ∧
      last.output.contents = (lastState (compute state)).output.contents.extract 0 limit

end

/-- A computation is quiet when it goes the same way on every output and leaves it as it is. -/
def Quiet {α : Type} (compute : Eval α) : Prop :=
  ∀ state output, compute (state.withOutput output) =
    mapState (StateOf.withOutput output) (compute state)

namespace Quiet

variable {α β : Type} {compute : Eval α} {next : α → Eval β}

theorem pure (value : α) : Quiet (pure value : Eval α) := fun _ _ => rfl

theorem throw (halt : Halt) : Quiet (throw halt : Eval α) := fun _ _ => rfl

theorem bind (first : Quiet compute) (rest : ∀ value, Quiet (next value)) :
    Quiet (compute >>= next) := by
  intro state output
  have started := first state output
  cases ended : compute state with
  | ok value after =>
      rw [ended] at started
      rw [bind_of_ok ended, bind_of_ok started]
      exact rest value after output
  | error halt after =>
      rw [ended] at started
      rw [bind_of_error ended, bind_of_error started]
      rfl

/-- A change of the state is quiet if it neither reads nor writes the output. -/
theorem modifyGet {change : State → α × State}
    (same : ∀ state output, change (state.withOutput output) =
      ((change state).1, (change state).2.withOutput output)) :
    Quiet (modifyGet change : Eval α) := by
  intro state output
  rw [modifyGet_apply, modifyGet_apply, same]
  rfl

/-- A quiet computation leaves the output as it is. -/
theorem output_eq (quiet : Quiet compute) (state : State) :
    (lastState (compute state)).output = state.output := by
  have same := congrArg lastState (quiet state state.output)
  rw [lastState_mapState] at same
  change lastState (compute state) = _ at same
  rw [same]
  rfl

end Quiet

section
variable {context : Context}

theorem makeClosure_quiet {env : Env} {name : Name} {parameters : List Name} {body : List Stmt} :
    Quiet (makeClosure env name parameters body) := .modifyGet fun _ _ => rfl

theorem readClock_quiet {clock : Nat → Float} : Quiet (readClock clock : Eval Value) :=
  .modifyGet fun _ _ => rfl

theorem nest_quiet {env : Env} : Quiet (nest env) := .modifyGet fun _ _ => rfl

/-- A definition writes nothing. -/
theorem define_quiet {env : Env} {name : String} {value : Value} :
    Quiet (define env name value) := .modifyGet fun _ _ => rfl

theorem checkArity_quiet {name : String} {expected given : Nat} {span : Span} :
    Quiet (checkArity name expected given span) := by
  unfold checkArity
  split
  · exact .pure ()
  · exact .throw _

theorem notCallable_quiet {callee : Value} {span : Span} :
    Quiet (notCallable callee span : Eval Value) := .throw _

theorem applyUnary_quiet {op : Located UnaryOp} {operand : Value} :
    Quiet (applyUnary op operand) := by
  unfold applyUnary
  split
  · exact .pure _
  · exact .throw _

theorem applyBinary_quiet {op : Located BinaryOp} {left right : Value} :
    Quiet (applyBinary op left right) := by
  unfold applyBinary
  split
  · exact .pure _
  · exact .throw _

theorem enter_quiet {closure : Closure} {given : List Value} : Quiet (enter closure given) := by
  refine nest_quiet.bind fun env => .bind ?_ fun _ => .pure env
  induction closure.parameters.zip given with
  | nil => exact .pure ()
  | cons binding rest ih => exact define_quiet.bind fun _ => ih

theorem locate_quiet {env : Env} {target : Occurrence} : Quiet (locate context env target) := by
  intro state output
  rw [locate_eq, locate_eq]
  have store : (state.withOutput output).store = state.store := rfl
  rw [store]
  cases frameFor context env target state.store <;> rfl

/-- A read writes nothing. -/
theorem read_quiet {env : Env} {target : Occurrence} : Quiet (read context env target) := by
  refine locate_quiet.bind fun frame state output => ?_
  rw [bind_of_ok (get_apply _), bind_of_ok (get_apply _)]
  have store : (state.withOutput output).store = state.store := rfl
  rw [store]
  cases state.store.readIn frame target.name <;> rfl

/-- An assignment writes nothing to the output. -/
theorem assign_quiet {env : Env} {target : Occurrence} {value : Value} :
    Quiet (assign context env target value) :=
  locate_quiet.bind fun _ => .modifyGet fun _ _ => rfl

end

section
variable {context : Context} {moment part : Moment} {state : State} {limit index : Nat} {span : Span}

/-- What a part of some work prints, the whole prints. -/
theorem Prints.of_part (prints : Prints context part index span)
    (leads : Part context moment part) : Prints context moment index span := by
  obtain ⟨fuel, env, value, state, given, after, reached, rest⟩ := prints
  exact ⟨fuel, env, value, state, given, after, .head leads reached, rest⟩

namespace Cuts

variable {α β : Type} {compute : Eval α} {next : α → Eval β}

/-- What a part of some work comes to, seen from the whole. -/
theorem of_part (cuts : Cuts context limit part compute state) (leads : Part context moment part) :
    Cuts context limit moment compute state := by
  refine ⟨cuts.grows, cuts.whole, fun fits full => ?_⟩
  obtain ⟨span, last, prints, rest⟩ := cuts.broken fits full
  exact ⟨span, last, prints.of_part leads, rest⟩

/-- What writes nothing is the same under every limit. -/
theorem of_quiet (quiet : Quiet compute) (unlimited : state.output.limit = none) :
    Cuts context limit moment compute state := by
  have same := quiet.output_eq state
  refine ⟨⟨same ▸ unlimited, .empty, by rw [same, ByteArray.append_empty]⟩, fun _ => ?_,
    fun fits full => ?_⟩
  · rw [StateOf.cut, quiet]
    cases ended : compute state with
    | ok value after | error halt after =>
        rw [ended] at same
        change after.output = state.output at same
        simp only [mapState, StateOf.cut, same]
  · simp only [StateOf.written, same] at full
    exact absurd full (Nat.not_lt_of_le fits)

/-- A sequence whose first step fits goes on in the same way, and one whose first step does not has
broken off there. -/
theorem bind (first : Cuts context limit moment compute state)
    (rest : ∀ value after, Gives compute state value after → after.output.limit = none →
      Cuts context limit moment (next value) after) :
    Cuts context limit moment (compute >>= next) state := by
  obtain ⟨grows, whole, broken⟩ := first
  cases ended : compute state with
  | error halt after =>
      rw [ended] at grows whole broken
      have same := bind_of_error ended next
      refine ⟨same ▸ grows, fun fits => ?_, fun fits full => ?_⟩
      · rw [same] at fits ⊢
        exact bind_of_error (whole fits) next
      · rw [same] at full ⊢
        obtain ⟨span, last, prints, stopped, contents⟩ := broken fits full
        exact ⟨span, last, prints, bind_of_error stopped next, contents⟩
  | ok value after =>
      rw [ended] at grows whole broken
      obtain ⟨growsOn, wholeOn, brokenOn⟩ := rest value after ended grows.unlimited
      have same := bind_of_ok ended next
      refine ⟨same ▸ grows.trans growsOn, fun fits => ?_, fun fits full => ?_⟩
      · rw [same] at fits ⊢
        rw [bind_of_ok (whole (Nat.le_trans growsOn.written_le fits)) next]
        exact wholeOn fits
      · rw [same] at full ⊢
        rcases Nat.lt_or_ge limit after.written with beyond | within
        · obtain ⟨span, last, prints, stopped, contents⟩ := broken fits beyond
          refine ⟨span, last, prints, bind_of_error stopped next, ?_⟩
          exact contents.trans (growsOn.extract_eq (Nat.le_of_lt beyond)).symm
        · obtain ⟨span, last, prints, stopped, contents⟩ := brokenOn within full
          refine ⟨span, last, prints, ?_, contents⟩
          rw [bind_of_ok (whole within) next]
          exact stopped

/-- Quiet steps do not matter in front of others or behind them. -/
theorem bind_quiet (first : Cuts context limit moment compute state)
    (rest : ∀ value, Quiet (next value)) :
    Cuts context limit moment (compute >>= next) state :=
  first.bind fun value _ _ unlimited => .of_quiet (rest value) unlimited

end Cuts

end

end Evaluation

end Lox
