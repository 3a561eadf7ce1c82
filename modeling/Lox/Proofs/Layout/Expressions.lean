import Lox.Proofs.Layout.Laying

namespace Lox.Parser

open Lox.Computation

def Operator.text : Operator → String
  | .logical op => op.text
  | .binary op => op.text

/-- An operator is spelled like its symbol. -/
theorem Level.operator?_text {level : Level} {symbol : Symbol} {operator : Operator}
    (joins : level.operator? symbol = some operator) : symbol.text = operator.text := by
  unfold Level.operator? at joins
  split at joins <;> cases joins <;> rfl

/-- An operator with one operand is written as its symbol. -/
theorem unaryOp?_text {symbol : Symbol} {op : UnaryOp} (stands : unaryOp? symbol = some op) :
    symbol.text = op.text := by
  unfold unaryOp? at stands
  split at stands <;> cases stands <;> rfl

section
variable {lexemes : List Lexeme} {eof : Nat}

/-- The symbol of a lexeme that is passed stands at the place of the lexeme. -/
theorem Passes.stands {state middle : State} {lexeme : Lexeme} {symbol : Symbol}
    (passes : Passes lexemes eof state lexeme middle) (spelled : Spells symbol lexeme) :
    Stands lexemes symbol.text lexeme.span :=
  ⟨lexeme, passes.among, rfl, by rw [spelled]; rfl⟩

/-- The span of one lexeme. -/
theorem Passes.bounded {state middle : State} {lexeme : Lexeme}
    (passes : Passes lexemes eof state lexeme middle) : Bounded lexemes lexeme.span :=
  ⟨⟨lexeme, passes.among, rfl⟩, ⟨lexeme, passes.among, rfl⟩, passes.proper⟩

/-- A chain is laid out if its operands are and its operator stands between them. -/
theorem apply_laidOut {operator : Operator} {place : Span} {left right : Expr}
    (op : Stands lexemes operator.text place) (first : left.span.stop ≤ place.start)
    (second : place.stop ≤ right.span.start) (laidLeft : left.LaidOut lexemes)
    (laidRight : right.LaidOut lexemes) :
    (operator.apply place left right).LaidOut lexemes := by
  cases operator <;> exact ⟨rfl, op, first, second, laidLeft, laidRight⟩

/-- An operator's expression reaches from its left operand to its right one. -/
theorem apply_span (operator : Operator) (place : Span) (left right : Expr) :
    (operator.apply place left right).span = left.span.to right.span := by
  cases operator <;> rfl

end

section
variable (lexemes : List Lexeme) (eof : Nat)

/-- An expression is laid out from the next lexeme on, up to the last one taken. -/
structure Covers (state : State) (expr : Expr) (last : State) : Prop where
  laid : expr.LaidOut lexemes
  start : expr.span.start = (state.here eof).start
  before : state.lastStop ≤ expr.span.start
  stop : expr.span.stop ≤ last.lastStop

/-- An expression goes on from another one. -/
structure GoesOn (left expr : Expr) (last : State) : Prop where
  laid : expr.LaidOut lexemes
  start : expr.span.start = left.span.start
  stop : expr.span.stop ≤ last.lastStop

/-- The productions of expressions lay out their trees with an amount of fuel. -/
structure ExpressionsLaid (fuel : Nat) : Prop where
  expression : ∀ {state}, Standing lexemes eof state →
    Lays lexemes eof state.lastStop (expression eof fuel) state (Covers lexemes eof state)
  operand : ∀ level {state}, Standing lexemes eof state →
    Lays lexemes eof state.lastStop (operand eof fuel level) state (Covers lexemes eof state)
  chain : ∀ level {state}, Standing lexemes eof state →
    Lays lexemes eof state.lastStop (chain eof fuel level) state (Covers lexemes eof state)
  chainAfter : ∀ level {left state}, left.LaidOut lexemes → left.span.stop ≤ state.lastStop →
    Standing lexemes eof state →
      Lays lexemes eof state.lastStop (chainAfter eof fuel level left) state (GoesOn lexemes left)
  unary : ∀ {state}, Standing lexemes eof state →
    Lays lexemes eof state.lastStop (unary eof fuel) state (Covers lexemes eof state)
  call : ∀ {state}, Standing lexemes eof state →
    Lays lexemes eof state.lastStop (call eof fuel) state (Covers lexemes eof state)
  callAfter : ∀ {callee state}, callee.LaidOut lexemes → callee.span.stop ≤ state.lastStop →
    Standing lexemes eof state →
      Lays lexemes eof state.lastStop (callAfter eof fuel callee) state (GoesOn lexemes callee)
  arguments : ∀ length {state}, Standing lexemes eof state →
    Lays lexemes eof state.lastStop (arguments eof fuel length) state fun given last =>
      Expr.LaidOutBetween lexemes state.lastStop last.lastStop given
  primary : ∀ {state}, Standing lexemes eof state →
    Lays lexemes eof state.lastStop (primary eof fuel) state (Covers lexemes eof state)

end

section
variable {lexemes : List Lexeme} {eof : Nat}

/-- What goes on from an expression covers what the expression does. -/
theorem GoesOn.covers {state middle last : State} {left expr : Expr}
    (goes : GoesOn lexemes left expr last) (covers : Covers lexemes eof state left middle) :
    Covers lexemes eof state expr last :=
  ⟨goes.laid, goes.start.trans covers.start, goes.start ▸ covers.before, goes.stop⟩

variable {fuel : Nat} {state : State} (order : InOrder lexemes)
  (parts : ExpressionsLaid lexemes eof fuel) (standing : Standing lexemes eof state)
include order parts standing

/-- An expression covers exactly the lexemes that are read for it. -/
theorem expression_lays :
    Lays lexemes eof state.lastStop (expression eof (fuel + 1)) state (Covers lexemes eof state) := by
  rw [expression]
  apply (parts.chain .or standing).bind (Nat.le_refl _)
  intro left middle standing reached covers
  refine .step isNext_apply ?_
  split
  next sign =>
    apply Lays.takeSymbol order standing (of_decide_eq_true sign)
    intro lexeme behind spelled passes
    have before := passes.before
    have further := passes.le
    apply (parts.expression passes.standing).bind (Nat.le_trans reached further)
    intro value last standing beyond value_covers
    have ends := covers.stop
    have starts := value_covers.before
    have above : state.lastStop ≤ last.lastStop := by omega
    have follows : left.span.stop ≤ value.span.start := by omega
    have within : left.span.stop ≤ last.lastStop := by omega
    split
    next target =>
      exact .pure standing above ⟨⟨rfl, covers.laid, follows, value_covers.laid⟩, covers.start,
        covers.before, value_covers.stop⟩
    next =>
      have placed : Placed lexemes eof ⟨.invalidAssignmentTarget, lexeme.span⟩ :=
        .lexeme passes.among rfl
      refine .step report_apply (.pure (standing.report placed) above ?_)
      exact ⟨covers.laid, covers.start, covers.before, within⟩
  next => exact .pure standing reached covers

omit order in
/-- An operand of a level covers the lexemes that are read for it. -/
theorem operand_lays (level : Level) :
    Lays lexemes eof state.lastStop (operand eof (fuel + 1) level) state
      (Covers lexemes eof state) := by
  rw [operand]
  split
  next tighter _ => exact parts.chain tighter standing
  next => exact parts.unary standing

omit order in
/-- A chain of operators covers the lexemes that are read for it. -/
theorem chain_lays (level : Level) :
    Lays lexemes eof state.lastStop (chain eof (fuel + 1) level) state (Covers lexemes eof state) := by
  rw [chain]
  apply (parts.operand level standing).bind (Nat.le_refl _)
  intro left middle standing reached covers
  apply (parts.chainAfter level covers.laid covers.stop standing).weaken reached
  intro expr last _ goes
  exact goes.covers covers

/-- A chain goes on from its left operand to the last lexeme that is read. -/
theorem chainAfter_lays (level : Level) {left : Expr} (laid : left.LaidOut lexemes)
    (ends : left.span.stop ≤ state.lastStop) :
    Lays lexemes eof state.lastStop (chainAfter eof (fuel + 1) level left) state
      (GoesOn lexemes left) := by
  rw [chainAfter]
  refine .step peek?_apply ?_
  split
  next operator joins =>
    obtain ⟨symbol, next, joins⟩ := Option.bind_eq_some_iff.1 joins
    apply Lays.takeSymbol order standing next
    intro lexeme middle spelled passes
    have before := passes.before
    apply (parts.operand level passes.standing).bind passes.le
    intro right behind standing reached covers
    have op : Stands lexemes operator.text lexeme.span :=
      Level.operator?_text joins ▸ passes.stands spelled
    have laidAll : (operator.apply lexeme.span left right).LaidOut lexemes := by
      apply apply_laidOut op (by omega) _ laid covers.laid
      exact passes.stop ▸ covers.before
    have stop : (operator.apply lexeme.span left right).span.stop ≤ behind.lastStop := by
      rw [apply_span]
      exact covers.stop
    apply (parts.chainAfter level laidAll stop standing).weaken (Nat.le_trans passes.le reached)
    intro expr last _ goes
    exact ⟨goes.laid, by rw [goes.start, apply_span]; rfl, goes.stop⟩
  next => exact .pure standing (Nat.le_refl _) ⟨laid, rfl, ends⟩

/-- A prefixed expression covers its operators and its operand. -/
theorem unary_lays :
    Lays lexemes eof state.lastStop (unary eof (fuel + 1)) state (Covers lexemes eof state) := by
  rw [unary]
  refine .step peek?_apply ?_
  split
  next op stands =>
    obtain ⟨symbol, next, stands⟩ := Option.bind_eq_some_iff.1 stands
    apply Lays.takeSymbol order standing next
    intro lexeme middle spelled passes
    apply (parts.unary passes.standing).bind passes.le
    intro inner last standing reached covers
    have sign : Stands lexemes op.text lexeme.span := unaryOp?_text stands ▸ passes.stands spelled
    have follows : lexeme.span.stop ≤ inner.span.start := passes.stop ▸ covers.before
    refine .pure standing (Nat.le_trans passes.le reached)
      ⟨⟨rfl, sign, follows, covers.laid⟩, ?_, passes.before, covers.stop⟩
    rw [passes.here]
    rfl
  next => exact parts.call standing

omit order in
theorem call_lays :
    Lays lexemes eof state.lastStop (call eof (fuel + 1)) state (Covers lexemes eof state) := by
  rw [call]
  apply (parts.primary standing).bind (Nat.le_refl _)
  intro callee middle standing reached covers
  apply (parts.callAfter covers.laid covers.stop standing).weaken reached
  intro expr last _ goes
  exact goes.covers covers

/-- A call goes on from its callee to its closing parenthesis. -/
theorem callAfter_lays {callee : Expr} (laid : callee.LaidOut lexemes)
    (ends : callee.span.stop ≤ state.lastStop) :
    Lays lexemes eof state.lastStop (callAfter eof (fuel + 1) callee) state
      (GoesOn lexemes callee) := by
  rw [callAfter]
  refine Lays.accept order standing ?_ (.pure standing (Nat.le_refl _) ⟨laid, rfl, ends⟩)
  intro opening middle spelled passes
  have before := passes.before
  have beyond := passes.le
  -- Both with and without arguments the call goes on behind its closing parenthesis.
  have closing (given : List Expr) (behind : State) (standing : Standing lexemes eof behind)
      (reached : state.lastStop ≤ behind.lastStop)
      (between : Expr.LaidOutBetween lexemes callee.span.stop behind.lastStop given) :
      Lays lexemes eof state.lastStop (do
        let paren ← expect eof .rightParen
        callAfter eof fuel (.call (callee.span.to paren) paren callee given)) behind
        (GoesOn lexemes callee) := by
    apply Lays.expect order standing reached
    intro lexeme last spelled passes
    have laidAll : (Expr.call (callee.span.to lexeme.span) lexeme.span callee given).LaidOut
        lexemes :=
      ⟨rfl, passes.stands spelled, laid, between.weaken (Nat.le_refl _) passes.before⟩
    have stop : lexeme.span.stop ≤ last.lastStop := Nat.le_of_eq passes.stop.symm
    apply (parts.callAfter laidAll stop passes.standing).weaken (Nat.le_trans reached passes.le)
    intro expr final _ goes
    exact ⟨goes.laid, goes.start, goes.stop⟩
  refine .step isNext_apply ?_
  simp only
  split
  next =>
    refine .step (pure_apply [] middle) (closing [] middle passes.standing beyond ?_)
    exact Nat.le_trans ends beyond
  next =>
    apply (parts.arguments 0 passes.standing).bind beyond
    intro given behind standing reached between
    exact closing given behind standing (Nat.le_trans beyond reached)
      (between.weaken (Nat.le_trans ends beyond) (Nat.le_refl _))

/-- The arguments are laid out in order behind the opening parenthesis. -/
theorem arguments_lays (length : Nat) :
    Lays lexemes eof state.lastStop (arguments eof (fuel + 1) length) state fun given last =>
      Expr.LaidOutBetween lexemes state.lastStop last.lastStop given := by
  rw [arguments]
  apply Lays.checkLength standing
  intro middle standing same
  apply (parts.expression standing).bind (Nat.le_of_eq same.symm)
  intro first behind standing reached covers
  have starts := covers.before
  rw [same] at starts reached
  apply Lays.accept order standing
  · intro comma next spelled passes
    apply (parts.arguments (length + 1) passes.standing).bind (Nat.le_trans reached passes.le)
    intro others last standing beyond between
    have ends := Nat.le_trans covers.stop passes.le
    refine .pure standing (Nat.le_trans (Nat.le_trans reached passes.le) beyond) ?_
    exact ⟨starts, covers.laid, between.weaken ends (Nat.le_refl _)⟩
  · exact .pure standing reached ⟨starts, covers.laid, covers.stop⟩

/-- A primary expression covers its lexemes, the parentheses of a group included. -/
theorem primary_lays :
    Lays lexemes eof state.lastStop (primary eof (fuel + 1)) state (Covers lexemes eof state) := by
  rw [primary]
  refine .step (get_apply _) ?_
  split
  next => exact .refuse standing (Nat.le_refl _)
  next token text span rest next =>
    split
    next name =>
      refine .step freshId_apply ?_
      apply Lays.take order (standing.withId (state.nextId + 1)) next
      intro last passes
      refine .pure passes.standing passes.le ⟨⟨_, passes.among, rfl, rfl⟩, ?_, passes.before, ?_⟩
      · rw [here_cons next]
        rfl
      · exact Nat.le_of_eq passes.stop.symm
    next =>
      apply Lays.take order standing next
      intro middle passes
      have opens : Stands lexemes "(" span := passes.stands rfl
      apply (parts.expression passes.standing).bind passes.le
      intro inner behind standing reached covers
      have follows : span.stop ≤ inner.span.start := passes.stop ▸ covers.before
      apply Lays.expect order standing (Nat.le_trans passes.le reached)
      intro closing last spelled closes
      refine .pure closes.standing (Nat.le_trans (Nat.le_trans passes.le reached) closes.le)
        ⟨⟨span, closing.span, opens, closes.stands spelled, rfl, follows, ?_, covers.laid⟩, ?_,
          passes.before, Nat.le_of_eq closes.stop.symm⟩
      · exact Nat.le_trans covers.stop closes.before
      · rw [here_cons next]
        rfl
    next =>
      split
      next value _ =>
        apply Lays.take order standing next
        intro last passes
        refine .pure passes.standing passes.le ⟨passes.bounded, ?_, passes.before, ?_⟩
        · rw [here_cons next]
          rfl
        · exact Nat.le_of_eq passes.stop.symm
      next => exact .refuse standing (Nat.le_refl _)

end

/-- Expressions are laid out with any amount of fuel. -/
theorem expressionsLaid {lexemes : List Lexeme} (order : InOrder lexemes) (eof fuel : Nat) :
    ExpressionsLaid lexemes eof fuel := by
  induction fuel with
  | zero =>
      exact ⟨fun _ => .outOfFuel, fun _ _ _ => .outOfFuel, fun _ _ _ => .outOfFuel,
        fun _ _ _ _ _ _ => .outOfFuel, fun _ => .outOfFuel, fun _ => .outOfFuel,
        fun _ _ _ => .outOfFuel, fun _ _ _ => .outOfFuel, fun _ => .outOfFuel⟩
  | succ fuel parts =>
      exact ⟨expression_lays order parts, fun level _ standing => operand_lays parts standing level,
        fun level _ standing => chain_lays parts standing level,
        fun level _ _ laid ends standing => chainAfter_lays order parts standing level laid ends,
        unary_lays order parts, call_lays parts,
        fun laid ends standing => callAfter_lays order parts standing laid ends,
        fun length _ standing => arguments_lays order parts standing length,
        primary_lays order parts⟩

end Lox.Parser
