import Lox.Proofs.Layout.Expressions
import Lox.Proofs.Syntax.Recognition

namespace Lox

section
variable (lexemes : List Lexeme)

/-- A statement is laid out inside a span. -/
structure Stmt.Within (span : Span) (stmt : Stmt) : Prop where
  inside : stmt.span.Inside span
  laid : stmt.LaidOut lexemes

/-- Statements follow one another between two offsets. -/
def Stmt.InSequence (first last : Nat) : List Stmt → Prop
  | [] => first ≤ last
  | stmt :: rest =>
      first ≤ stmt.span.start ∧ stmt.LaidOut lexemes ∧ Stmt.InSequence stmt.span.stop last rest

end

section
variable {lexemes : List Lexeme}

theorem Span.Inside.trans {inner span outer : Span} (first : inner.Inside span)
    (second : span.Inside outer) : inner.Inside outer :=
  ⟨Nat.le_trans second.start first.start, Nat.le_trans first.stop second.stop⟩

theorem Expr.LaidOutIn.widen {inner outer : Span} {expr : Expr}
    (laid : expr.LaidOutIn lexemes inner) (inside : inner.Inside outer) :
    expr.LaidOutIn lexemes outer := ⟨laid.inside.trans inside, laid.laid⟩

theorem Stmt.Within.widen {inner outer : Span} {stmt : Stmt}
    (within : stmt.Within lexemes inner) (inside : inner.Inside outer) :
    stmt.Within lexemes outer := ⟨within.inside.trans inside, within.laid⟩

theorem Stmt.LaidOut.bounded {stmt : Stmt} (laid : stmt.LaidOut lexemes) :
    Bounded lexemes stmt.span := by
  cases stmt with
  | branch span condition consequent alternative => cases alternative <;> exact laid.1
  | _ => exact laid.1

/-- A sequence of statements does not end before it starts. -/
theorem Stmt.InSequence.le {first last : Nat} {stmts : List Stmt}
    (sequence : Stmt.InSequence lexemes first last stmts) : first ≤ last := by
  induction stmts generalizing first with
  | nil => exact sequence
  | cons stmt rest ih =>
      obtain ⟨before, laid, others⟩ := sequence
      have proper := laid.bounded.proper
      have behind := ih others
      omega

/-- Statements in sequence are laid out in every span around the sequence. -/
theorem Stmt.InSequence.laidOutIn {first last : Nat} {stmts : List Stmt} {span : Span}
    (sequence : Stmt.InSequence lexemes first last stmts) (start : span.start ≤ first)
    (stop : last ≤ span.stop) : Stmt.LaidOutIn lexemes span stmts := by
  induction stmts generalizing first with
  | nil => trivial
  | cons stmt rest ih =>
      obtain ⟨before, laid, others⟩ := sequence
      have proper := laid.bounded.proper
      have behind := others.le
      exact ⟨⟨by omega, by omega⟩, laid, ih others (by omega)⟩

/-- A sequence may be said to start earlier. -/
theorem Stmt.InSequence.weaken {first before last : Nat} {stmts : List Stmt}
    (sequence : Stmt.InSequence lexemes first last stmts) (below : before ≤ first) :
    Stmt.InSequence lexemes before last stmts := by
  cases stmts with
  | nil => exact Nat.le_trans below sequence
  | cons stmt rest => exact ⟨Nat.le_trans below sequence.1, sequence.2⟩

/-- A declaration that is not given up comes before the others. -/
theorem Stmt.InSequence.toList_append {first middle last : Nat} {given : Option Stmt}
    {stmts : List Stmt} (within : ∀ stmt ∈ given, stmt.Within lexemes ⟨first, middle⟩)
    (reached : first ≤ middle) (sequence : Stmt.InSequence lexemes middle last stmts) :
    Stmt.InSequence lexemes first last (given.toList ++ stmts) := by
  cases given with
  | none => exact sequence.weaken reached
  | some stmt =>
      obtain ⟨inside, laid⟩ := within stmt rfl
      exact ⟨inside.start, laid, sequence.weaken inside.stop⟩

/-- The parts of a counting loop lie inside of it. -/
theorem Stmt.forLoop_laidOut (order : InOrder lexemes) {span : Span} {initial : Option Stmt}
    {test step : Option Expr} {body : Stmt} (bounded : Bounded lexemes span)
    (starts : ∀ stmt ∈ initial, stmt.Within lexemes span)
    (tests : ∀ expr ∈ test, expr.LaidOutIn lexemes span)
    (steps : ∀ expr ∈ step, expr.LaidOutIn lexemes span) (repeated : body.Within lexemes span) :
    (Stmt.forLoop span initial test step body).LaidOut lexemes ∧
      (Stmt.forLoop span initial test step body).span = span := by
  have condition : (test.getD (.literal span (.bool true))).LaidOutIn lexemes span := by
    cases test with
    | none => exact ⟨.refl span, bounded⟩
    | some test => exact tests test rfl
  have loop {inner : Stmt} (inside : inner.Within lexemes span) :
      (Stmt.loop span (test.getD (.literal span (.bool true))) inner).LaidOut lexemes :=
    ⟨bounded, condition, inside.inside, inside.laid⟩
  have stepped (step : Expr) (laid : step.LaidOutIn lexemes span) :
      (Stmt.block span [body, .expression step.span step]).Within lexemes span := by
    refine ⟨.refl span, bounded, repeated.inside, repeated.laid, laid.inside, ?_, trivial⟩
    exact ⟨laid.laid.bounded order, .refl _, laid.laid⟩
  have opened (first : Stmt) (within : first.Within lexemes span) {inner : Stmt}
      (laid : inner.LaidOut lexemes) (same : inner.span = span) :
      (Stmt.block span [first, inner]).LaidOut lexemes :=
    ⟨bounded, within.inside, within.laid, same ▸ .refl span, laid, trivial⟩
  cases initial with
  | none =>
      cases step with
      | none => exact ⟨loop repeated, rfl⟩
      | some step => exact ⟨loop (stepped step (steps step rfl)), rfl⟩
  | some first =>
      cases step with
      | none => exact ⟨opened first (starts first rfl) (loop repeated) rfl, rfl⟩
      | some step =>
          exact ⟨opened first (starts first rfl) (loop (stepped step (steps step rfl))) rfl, rfl⟩

end

namespace Parser

open Lox.Computation

section
variable (lexemes : List Lexeme) (eof : Nat)

/-- A production goes on behind a lexeme that starts at an offset. -/
structure Behind (start : Nat) (state : State) : Prop where
  started : ∃ lexeme ∈ lexemes, lexeme.span.start = start
  before : start < state.lastStop

/-- A statement is laid out from an offset to the end of the last lexeme taken. -/
structure Completes (start : Nat) (stmt : Stmt) (last : State) : Prop where
  laid : stmt.LaidOut lexemes
  span : stmt.span = ⟨start, last.lastStop⟩

/-- The span of the lexemes that are passed from one state to another. -/
def between (state last : State) : Span := ⟨state.lastStop, last.lastStop⟩

end

section
variable {lexemes : List Lexeme} {eof start : Nat} {state middle last : State} {lexeme : Lexeme}

theorem Passes.behind (passes : Passes lexemes eof state lexeme middle) :
    Behind lexemes lexeme.span.start middle :=
  ⟨⟨lexeme, passes.among, rfl⟩, passes.stop ▸ passes.proper⟩

theorem Behind.starts (behind : Behind lexemes start state) : start ≤ state.lastStop :=
  Nat.le_of_lt behind.before

/-- What starts at a lexeme ends at another one. -/
theorem Behind.bounded (behind : Behind lexemes start middle)
    (passes : Passes lexemes eof state lexeme last) (reached : middle.lastStop ≤ last.lastStop) :
    Bounded lexemes ⟨start, last.lastStop⟩ :=
  ⟨behind.started, ⟨lexeme, passes.among, passes.stop.symm⟩,
    Nat.lt_of_lt_of_le behind.before reached⟩

/-- An expression that covers what is read is laid out in it. -/
theorem Covers.laidOutIn {expr : Expr} (covers : Covers lexemes eof state expr last) :
    expr.LaidOutIn lexemes (between state last) := ⟨⟨covers.before, covers.stop⟩, covers.laid⟩

/-- What is read is inside every span around it. -/
theorem between_inside {outer : Span} (start : outer.start ≤ state.lastStop)
    (stop : last.lastStop ≤ outer.stop) : (between state last).Inside outer := ⟨start, stop⟩

end

section
variable {lexemes : List Lexeme} {eof : Nat} (order : InOrder lexemes) (fuel : Nat) {state : State}
  (standing : Standing lexemes eof state)
include order standing

/-- A condition is laid out in the stretch that is read for it. -/
theorem condition_lays :
    Lays lexemes eof state.lastStop (condition eof fuel) state fun test last =>
      test.LaidOutIn lexemes (between state last) := by
  simp only [condition, discard_bind]
  apply Lays.expect order standing (Nat.le_refl _)
  intro opening middle _ opens
  apply ((expressionsLaid order eof fuel).expression opens.standing).bind opens.le
  intro test behind standing reached covers
  apply Lays.expect order standing (Nat.le_trans opens.le reached)
  intro closing last _ closes
  refine .pure closes.standing (Nat.le_trans (Nat.le_trans opens.le reached) closes.le) ?_
  exact covers.laidOutIn.widen (between_inside opens.le closes.le)

/-- A variable's declaration reaches from its keyword to its semicolon. -/
theorem variableDeclaration_lays {start : Nat} (behind : Behind lexemes start state) :
    Lays lexemes eof state.lastStop (variableDeclaration eof fuel start) state
      (Completes lexemes start) := by
  simp only [variableDeclaration, discard_bind]
  apply Lays.expectName order standing (Nat.le_refl _)
  intro name middle stands before stop standing
  have proper := (stands.bounded order).proper
  have starts : start ≤ state.lastStop := behind.starts
  have passed : state.lastStop ≤ middle.lastStop := by omega
  -- With and without an initializer the declaration goes on to the semicolon.
  have closing (initializer : Option Expr) (reached : State)
      (standing : Standing lexemes eof reached) (above : middle.lastStop ≤ reached.lastStop)
      (laid : ∀ value ∈ initializer, value.LaidOutIn lexemes (between middle reached)) :
      Lays lexemes eof state.lastStop (do
        let _ ← expect eof .semicolon
        let span ← spanFrom start
        return Stmt.variable span name initializer) reached (Completes lexemes start) := by
    apply Lays.expect order standing (Nat.le_trans passed above)
    intro lexeme last _ closes
    have further := Nat.le_trans above closes.le
    have whole := behind.bounded closes (Nat.le_trans passed further)
    have inside : name.span.Inside ⟨start, last.lastStop⟩ :=
      ⟨Nat.le_trans starts before, stop ▸ further⟩
    refine .step spanFrom_apply (.pure closes.standing (Nat.le_trans passed further) ⟨⟨whole,
      ⟨inside, stands⟩, fun value given => ?_⟩, rfl⟩)
    exact (laid value given).widen (between_inside (Nat.le_trans starts passed) closes.le)
  apply Lays.accept order standing
  · intro sign next _ passes
    have value := (expressionsLaid order eof fuel).expression passes.standing
    apply value.mapSome.bind (Nat.le_trans passed passes.le)
    intro initializer last standing reached laid
    refine closing initializer last standing (Nat.le_trans passes.le reached) fun value given => ?_
    exact (laid value given).laidOutIn.widen (between_inside passes.le (Nat.le_refl _))
  · apply Lays.step (pure_apply none middle)
    apply closing none middle standing (Nat.le_refl _)
    simp

/-- An expression statement reaches from its expression to its semicolon. -/
theorem expressionStatement_lays :
    Lays lexemes eof state.lastStop (expressionStatement eof fuel) state fun stmt last =>
      Completes lexemes (state.here eof).start stmt last ∧
        state.lastStop ≤ (state.here eof).start := by
  simp only [expressionStatement, discard_bind]
  refine .step here_apply ?_
  apply ((expressionsLaid order eof fuel).expression standing).bind (Nat.le_refl _)
  intro value middle standing reached covers
  apply Lays.expect order standing reached
  intro closing last _ closes
  have bounded := covers.laid.bounded order
  have proper := bounded.proper
  have within := Nat.le_trans covers.stop closes.le
  refine .step spanFrom_apply (.pure closes.standing (Nat.le_trans reached closes.le) ⟨⟨?_, rfl⟩,
    covers.start ▸ covers.before⟩)
  refine ⟨⟨covers.start ▸ bounded.start, ⟨closing, closes.among, closes.stop.symm⟩, ?_⟩,
    ⟨Nat.le_of_eq covers.start.symm, within⟩, covers.laid⟩
  exact covers.start ▸ Nat.lt_of_lt_of_le proper within

theorem loopStart_lays :
    Lays lexemes eof state.lastStop (loopStart eof fuel) state fun initial last =>
      ∀ stmt ∈ initial, stmt.Within lexemes (between state last) := by
  rw [loopStart]
  apply Lays.accept order standing
  · intro lexeme last _ passes
    exact .pure passes.standing passes.le (by simp)
  refine .step isNext_apply ?_
  split
  next declares =>
    apply Lays.takeSymbol order standing (of_decide_eq_true declares)
    intro keyword middle _ passes
    have declared := variableDeclaration_lays order fuel passes.standing passes.behind
    apply declared.mapSome.weaken passes.le
    intro initial last _ laid stmt given
    obtain ⟨laid, same⟩ := laid stmt given
    exact ⟨same ▸ ⟨passes.before, Nat.le_refl _⟩, laid⟩
  next =>
    apply (expressionStatement_lays order fuel standing).mapSome.weaken (Nat.le_refl _)
    intro initial last _ laid stmt given
    obtain ⟨⟨laid, same⟩, before⟩ := laid stmt given
    exact ⟨same ▸ ⟨before, Nat.le_refl _⟩, laid⟩

theorem expressionUnless_lays (closing : Symbol) :
    Lays lexemes eof state.lastStop (expressionUnless eof fuel closing) state fun given last =>
      ∀ expr ∈ given, expr.LaidOutIn lexemes (between state last) := by
  rw [expressionUnless]
  refine .step isNext_apply ?_
  split
  next => exact .pure standing (Nat.le_refl _) (by simp)
  next =>
    apply ((expressionsLaid order eof fuel).expression standing).mapSome.weaken (Nat.le_refl _)
    intro given last _ covers expr same
    exact (covers expr same).laidOutIn

/-- The parameters are laid out in the stretch that is read for them. -/
theorem parameters_lays (length : Nat) :
    Lays lexemes eof state.lastStop (parameters eof fuel length) state fun names last =>
      ∀ name ∈ names, Name.LaidOutIn lexemes (between state last) name := by
  induction fuel generalizing state length with
  | zero => exact .outOfFuel
  | succ fuel ih =>
      rw [parameters]
      apply Lays.checkLength standing
      intro middle standing same
      apply Lays.expectName order standing (Nat.le_of_eq same.symm)
      intro name next stands before stop standing
      have proper := (stands.bounded order).proper
      have starts : state.lastStop ≤ name.span.start := same ▸ before
      have passed : state.lastStop ≤ next.lastStop := by omega
      have first (last : State) (above : next.lastStop ≤ last.lastStop) :
          Name.LaidOutIn lexemes (between state last) name :=
        ⟨⟨starts, stop ▸ above⟩, stands⟩
      apply Lays.accept order standing
      · intro comma behind _ passes
        apply (ih passes.standing (length + 1)).bind (Nat.le_trans passed passes.le)
        intro others last standing reached laid
        have above := Nat.le_trans passes.le reached
        refine .pure standing (Nat.le_trans passed above) (List.forall_mem_cons.2
          ⟨first last above, fun other given => ?_⟩)
        obtain ⟨inside, stands⟩ := laid other given
        exact ⟨inside.trans (between_inside (Nat.le_trans passed passes.le) (Nat.le_refl _)), stands⟩
      · exact .pure standing passed (List.forall_mem_singleton.2 (first next (Nat.le_refl _)))

end

/-- A statement that is tried is laid out if it is found. -/
theorem attempt_lays {lexemes : List Lexeme} {eof floor : Nat} {statement : Production Stmt}
    {state : State} {given : Stmt → State → Prop}
    (lays : Lays lexemes eof floor statement state given) :
    Lays lexemes eof floor (attempt statement) state fun found last =>
      ∀ stmt ∈ found, given stmt last := by
  unfold Lays attempt at *
  cases ended : statement state with
  | ok stmt last =>
      rw [ended] at lays
      obtain ⟨standing, above, holds⟩ := lays
      exact ⟨standing, above, fun _ same => Option.some.inj same ▸ holds⟩
  | error stop last =>
      cases stop with
      | outOfFuel => trivial
      | error error =>
          rw [ended] at lays
          obtain ⟨standing, above, placed⟩ := lays
          obtain ⟨⟨before, split⟩, behind, errors⟩ := standing.report placed
          obtain ⟨skipped, recovered, -⟩ := recover_passes last.rest
          refine ⟨⟨⟨before ++ skipped, ?_⟩, fun lexeme among => behind lexeme ?_, errors⟩, above,
            nofun⟩
          · rw [split, List.append_assoc]
            exact congrArg (before ++ ·) recovered
          · change lexeme ∈ last.rest
            rw [recovered]
            exact List.mem_append_right skipped among

section
variable (lexemes : List Lexeme) (eof : Nat)

/-- A statement is laid out from the next lexeme to the last one taken. -/
structure CoversStmt (state : State) (stmt : Stmt) (last : State) : Prop where
  completes : Completes lexemes (state.here eof).start stmt last
  before : state.lastStop ≤ (state.here eof).start

/-- Statements are laid out from one state to another, which stands behind a lexeme. -/
structure Encloses (state : State) (stmts : List Stmt) (last : State) : Prop where
  sequence : Stmt.InSequence lexemes state.lastStop last.lastStop stmts
  stop : ∃ lexeme ∈ lexemes, lexeme.span.stop = last.lastStop

/-- The productions of statements lay out their trees with an amount of fuel. -/
structure StatementsLaid (fuel : Nat) : Prop where
  declaration : ∀ {state}, Standing lexemes eof state →
    Lays lexemes eof state.lastStop (declaration eof fuel) state fun given last =>
      ∀ stmt ∈ given, stmt.Within lexemes (between state last)
  functionDeclaration : ∀ {start state}, Behind lexemes start state → Standing lexemes eof state →
    Lays lexemes eof state.lastStop (functionDeclaration eof fuel start) state
      (Completes lexemes start)
  statement : ∀ {state}, Standing lexemes eof state →
    Lays lexemes eof state.lastStop (statement eof fuel) state (CoversStmt lexemes eof state)
  forStatement : ∀ {start state}, Behind lexemes start state → Standing lexemes eof state →
    Lays lexemes eof state.lastStop (forStatement eof fuel start) state (Completes lexemes start)
  blockBody : ∀ {state}, Standing lexemes eof state →
    Lays lexemes eof state.lastStop (blockBody eof fuel) state (Encloses lexemes state)

end

section
variable {lexemes : List Lexeme} {eof : Nat}

theorem CoversStmt.within {state last : State} {stmt : Stmt}
    (covers : CoversStmt lexemes eof state stmt last) :
    stmt.Within lexemes (between state last) := by
  obtain ⟨⟨laid, same⟩, before⟩ := covers
  exact ⟨same ▸ ⟨before, Nat.le_refl _⟩, laid⟩

/-- A statement behind others ends at a lexeme. -/
theorem CoversStmt.bounded {start : Nat} {state middle last : State} {stmt : Stmt}
    (covers : CoversStmt lexemes eof middle stmt last) (behind : Behind lexemes start state)
    (reached : state.lastStop ≤ last.lastStop) : Bounded lexemes ⟨start, last.lastStop⟩ := by
  obtain ⟨⟨laid, same⟩, -⟩ := covers
  have bounded := laid.bounded
  rw [same] at bounded
  exact ⟨behind.started, bounded.stop, Nat.lt_of_lt_of_le behind.before reached⟩

variable {fuel : Nat} {state : State} (order : InOrder lexemes)
  (parts : StatementsLaid lexemes eof fuel) (standing : Standing lexemes eof state)
include order parts standing

/-- A declaration is laid out within what is read for it. -/
theorem declaration_lays :
    Lays lexemes eof state.lastStop (declaration eof (fuel + 1)) state fun given last =>
      ∀ stmt ∈ given, stmt.Within lexemes (between state last) := by
  rw [declaration]
  apply attempt_lays
  have started {keyword : Lexeme} {middle : State}
      (passes : Passes lexemes eof state keyword middle) {production : Production Stmt}
      (lays : Lays lexemes eof middle.lastStop production middle
        (Completes lexemes (state.here eof).start)) :
      Lays lexemes eof state.lastStop production middle fun stmt last =>
        stmt.Within lexemes (between state last) := by
    apply lays.weaken passes.le
    intro stmt last _ completes
    obtain ⟨laid, same⟩ := completes
    rw [passes.here] at same
    exact ⟨same ▸ ⟨passes.before, Nat.le_refl _⟩, laid⟩
  refine .step here_apply ?_
  apply Lays.accept order standing
  · intro keyword middle _ passes
    refine started passes (parts.functionDeclaration ?_ passes.standing)
    exact passes.here ▸ passes.behind
  apply Lays.accept order standing
  · intro keyword middle _ passes
    refine started passes (variableDeclaration_lays order fuel passes.standing ?_)
    exact passes.here ▸ passes.behind
  · exact (parts.statement standing).weaken (Nat.le_refl _) fun stmt last _ covers => covers.within

/-- A function's declaration reaches from its keyword to its closing brace. -/
theorem functionDeclaration_lays {start : Nat} (behind : Behind lexemes start state) :
    Lays lexemes eof state.lastStop (functionDeclaration eof (fuel + 1) start) state
      (Completes lexemes start) := by
  simp only [functionDeclaration, discard_bind]
  apply Lays.expectName order standing (Nat.le_refl _)
  intro name middle stands before stop standing
  have proper := (stands.bounded order).proper
  have starts : start ≤ state.lastStop := behind.starts
  have passed : state.lastStop ≤ middle.lastStop := by omega
  apply Lays.expect order standing passed
  intro opening next _ opens
  have open_ := Nat.le_trans passed opens.le
  -- With and without parameters the declaration goes on to its body.
  have closing (given : List Name) (reached : State) (standing : Standing lexemes eof reached)
      (above : next.lastStop ≤ reached.lastStop)
      (laid : ∀ name ∈ given, Name.LaidOutIn lexemes (between next reached) name) :
      Lays lexemes eof state.lastStop (do
        let _ ← expect eof .rightParen
        let _ ← expect eof .leftBrace
        let body ← blockBody eof fuel
        let span ← spanFrom start
        return Stmt.function span name given body) reached (Completes lexemes start) := by
    apply Lays.expect order standing (Nat.le_trans open_ above)
    intro paren inside _ closes
    apply Lays.expect order closes.standing (Nat.le_trans open_ (Nat.le_trans above closes.le))
    intro brace entered _ enters
    have there := Nat.le_trans above (Nat.le_trans closes.le enters.le)
    apply (parts.blockBody enters.standing).bind (Nat.le_trans open_ there)
    intro body last standing further encloses
    have whole := Nat.le_trans open_ (Nat.le_trans there further)
    have proper := Nat.lt_of_lt_of_le behind.before whole
    refine .step spanFrom_apply (.pure standing whole ⟨⟨⟨behind.started, encloses.stop, proper⟩,
      ⟨⟨?_, ?_⟩, stands⟩, fun parameter among => ?_, ?_⟩, rfl⟩)
    · exact Nat.le_trans starts before
    · exact stop ▸ Nat.le_trans opens.le (Nat.le_trans there further)
    · obtain ⟨inside, stands⟩ := laid parameter among
      exact ⟨inside.trans (between_inside (Nat.le_trans starts open_)
        (Nat.le_trans closes.le (Nat.le_trans enters.le further))), stands⟩
    · exact encloses.sequence.laidOutIn (Nat.le_trans starts (Nat.le_trans open_ there))
        (Nat.le_refl _)
  refine .step isNext_apply ?_
  split
  next =>
    apply Lays.step (pure_apply [] next)
    exact closing [] next opens.standing (Nat.le_refl _) (List.forall_mem_nil _)
  next =>
    apply (parameters_lays order fuel opens.standing 0).bind open_
    intro given reached standing above laid
    exact closing given reached standing above laid

/-- A `for` loop reaches from its keyword to the end of its body. -/
theorem forStatement_lays {start : Nat} (behind : Behind lexemes start state) :
    Lays lexemes eof state.lastStop (forStatement eof (fuel + 1) start) state
      (Completes lexemes start) := by
  have starts : start ≤ state.lastStop := behind.starts
  simp only [forStatement, discard_bind]
  apply Lays.expect order standing (Nat.le_refl _)
  intro opening first _ opens
  apply (loopStart_lays order fuel opens.standing).bind opens.le
  intro initial second standing initialReached initialLaid
  have second_le : state.lastStop ≤ second.lastStop := Nat.le_trans opens.le initialReached
  apply (expressionUnless_lays order fuel standing .semicolon).bind second_le
  intro test third standing testReached testLaid
  have third_le : state.lastStop ≤ third.lastStop := Nat.le_trans second_le testReached
  apply Lays.expect order standing third_le
  intro separator fourth _ separates
  have fourth_le : state.lastStop ≤ fourth.lastStop := Nat.le_trans third_le separates.le
  apply (expressionUnless_lays order fuel separates.standing .rightParen).bind fourth_le
  intro step fifth standing stepReached stepLaid
  have fifth_le : state.lastStop ≤ fifth.lastStop := Nat.le_trans fourth_le stepReached
  apply Lays.expect order standing fifth_le
  intro closing sixth _ closes
  have sixth_le : state.lastStop ≤ sixth.lastStop := Nat.le_trans fifth_le closes.le
  apply (parts.statement closes.standing).bind sixth_le
  intro body last standing reached covers
  have last_le : state.lastStop ≤ last.lastStop := Nat.le_trans sixth_le reached
  have stepEnds : fifth.lastStop ≤ last.lastStop := Nat.le_trans closes.le reached
  have testEnds : third.lastStop ≤ last.lastStop :=
    Nat.le_trans separates.le (Nat.le_trans stepReached stepEnds)
  have initialEnds : second.lastStop ≤ last.lastStop := Nat.le_trans testReached testEnds
  have bounded := covers.bounded behind last_le
  have whole := Stmt.forLoop_laidOut order bounded
    (fun stmt given => (initialLaid stmt given).widen
      (between_inside (Nat.le_trans starts opens.le) initialEnds))
    (fun expr given => (testLaid expr given).widen
      (between_inside (Nat.le_trans starts second_le) testEnds))
    (fun expr given => (stepLaid expr given).widen
      (between_inside (Nat.le_trans starts fourth_le) stepEnds))
    (covers.within.widen (between_inside (Nat.le_trans starts sixth_le) (Nat.le_refl _)))
  exact .step spanFrom_apply (.pure standing last_le ⟨whole.1, whole.2⟩)

/-- What follows the keyword of a branch, whose statement starts at an offset. -/
theorem branch_lays {start : Nat} (behind : Behind lexemes start state) :
    Lays lexemes eof state.lastStop (do
      let test ← condition eof fuel
      let consequent ← statement eof fuel
      let alternative ← if ← accept .else then some <$> statement eof fuel else pure none
      return Stmt.branch (← spanFrom start) test consequent alternative) state
      (Completes lexemes start) := by
  have starts := behind.starts
  apply (condition_lays order fuel standing).bind (Nat.le_refl _)
  intro test second standing testReached testLaid
  apply (parts.statement standing).bind testReached
  intro consequent third standing reached covers
  have third_le := Nat.le_trans testReached reached
  -- With and without an alternative the statement ends with its last part.
  have closing (alternative : Option Stmt) (last : State) (standing : Standing lexemes eof last)
      (above : third.lastStop ≤ last.lastStop)
      (bounded : Bounded lexemes ⟨start, last.lastStop⟩)
      (laid : ∀ stmt ∈ alternative, stmt.Within lexemes (between third last)) :
      Lays lexemes eof state.lastStop (do
        let span ← spanFrom start
        return Stmt.branch span test consequent alternative) last (Completes lexemes start) := by
    have condition : test.LaidOutIn lexemes ⟨start, last.lastStop⟩ :=
      testLaid.widen (between_inside starts (Nat.le_trans reached above))
    have first : consequent.Within lexemes ⟨start, last.lastStop⟩ :=
      covers.within.widen (between_inside (Nat.le_trans starts testReached) above)
    refine .step spanFrom_apply (.pure standing (Nat.le_trans third_le above) ⟨?_, rfl⟩)
    cases alternative with
    | none => exact ⟨bounded, condition, first.inside, first.laid⟩
    | some stmt =>
        have second : stmt.Within lexemes ⟨start, last.lastStop⟩ :=
          (laid stmt rfl).widen (between_inside (Nat.le_trans starts third_le) (Nat.le_refl _))
        exact ⟨bounded, condition, first.inside, first.laid, second.inside, second.laid⟩
  apply Lays.accept order standing
  · intro word fourth _ separates
    simp only [if_true, map_eq_pure_bind, bind_assoc, pure_bind]
    apply (parts.statement separates.standing).bind (Nat.le_trans third_le separates.le)
    intro alternative last standing further other
    have above := Nat.le_trans separates.le further
    have bounded := other.bounded behind (Nat.le_trans third_le above)
    apply closing (some alternative) last standing above bounded
    intro stmt same
    cases same
    exact other.within.widen (between_inside separates.le (Nat.le_refl _))
  · apply Lays.step (pure_apply none third)
    apply closing none third standing (Nat.le_refl _) (covers.bounded behind third_le)
    simp

/-- A statement covers exactly the lexemes that are read for it. -/
theorem statement_lays :
    Lays lexemes eof state.lastStop (statement eof (fuel + 1)) state
      (CoversStmt lexemes eof state) := by
  simp only [statement, discard_bind]
  refine .step here_apply (.step peek?_apply ?_)
  -- What goes on behind the keyword of the statement completes the statement.
  have started {keyword : Lexeme} {middle last : State} {stmt : Stmt}
      (passes : Passes lexemes eof state keyword middle)
      (completes : Completes lexemes keyword.span.start stmt last) :
      CoversStmt lexemes eof state stmt last := by
    rw [← passes.here] at completes
    exact ⟨completes, passes.here ▸ passes.before⟩
  split
  next next =>
    apply Lays.takeSymbol order standing next
    intro keyword middle _ passes
    rw [passes.here]
    apply (parts.forStatement passes.behind passes.standing).weaken passes.le
    intro stmt last _ completes
    exact started passes completes
  next next =>
    apply Lays.takeSymbol order standing next
    intro keyword middle _ passes
    rw [passes.here]
    apply (branch_lays order parts passes.standing passes.behind).weaken passes.le
    intro stmt last _ completes
    exact started passes completes
  next next =>
    apply Lays.takeSymbol order standing next
    intro keyword middle _ passes
    rw [passes.here]
    apply ((expressionsLaid order eof fuel).expression passes.standing).bind passes.le
    intro value second standing reached covers
    have second_le := Nat.le_trans passes.le reached
    apply Lays.expect order standing second_le
    intro closing last _ closes
    have bounded := passes.behind.bounded closes (Nat.le_trans reached closes.le)
    refine .step spanFrom_apply (.pure closes.standing (Nat.le_trans second_le closes.le)
      (started passes ⟨⟨bounded, ?_⟩, rfl⟩))
    exact covers.laidOutIn.widen (between_inside passes.behind.starts closes.le)
  next next =>
    apply Lays.takeSymbol order standing next
    intro keyword middle spelled passes
    rw [passes.here]
    apply (expressionUnless_lays order fuel passes.standing .semicolon).bind passes.le
    intro value second standing reached laid
    have second_le := Nat.le_trans passes.le reached
    apply Lays.expect order standing second_le
    intro closing last _ closes
    have above := Nat.le_trans reached closes.le
    have bounded := passes.behind.bounded closes above
    have inside : keyword.span.Inside ⟨keyword.span.start, last.lastStop⟩ :=
      ⟨Nat.le_refl _, passes.stop ▸ above⟩
    refine .step spanFrom_apply (.pure closes.standing (Nat.le_trans second_le closes.le)
      (started passes ⟨⟨bounded, passes.stands spelled, inside, fun given same => ?_⟩, rfl⟩))
    exact (laid given same).widen (between_inside passes.behind.starts closes.le)
  next next =>
    apply Lays.takeSymbol order standing next
    intro keyword middle _ passes
    rw [passes.here]
    apply (condition_lays order fuel passes.standing).bind passes.le
    intro test second standing testReached testLaid
    have second_le := Nat.le_trans passes.le testReached
    apply (parts.statement standing).bind second_le
    intro body last standing reached covers
    have before := passes.behind.starts
    have bounded := covers.bounded passes.behind (Nat.le_trans testReached reached)
    have repeated : body.Within lexemes ⟨keyword.span.start, last.lastStop⟩ :=
      covers.within.widen (between_inside (Nat.le_trans before testReached) (Nat.le_refl _))
    refine .step spanFrom_apply (.pure standing (Nat.le_trans second_le reached)
      (started passes ⟨⟨bounded, ?_, repeated.inside, repeated.laid⟩, rfl⟩))
    exact testLaid.widen (between_inside before reached)
  next next =>
    apply Lays.takeSymbol order standing next
    intro keyword middle _ passes
    rw [passes.here]
    apply (parts.blockBody passes.standing).bind passes.le
    intro body last standing reached encloses
    have proper := Nat.lt_of_lt_of_le passes.behind.before reached
    have bounded : Bounded lexemes ⟨keyword.span.start, last.lastStop⟩ :=
      ⟨passes.behind.started, encloses.stop, proper⟩
    refine .step spanFrom_apply (.pure standing (Nat.le_trans passes.le reached)
      (started passes ⟨⟨bounded, ?_⟩, rfl⟩))
    exact encloses.sequence.laidOutIn passes.behind.starts (Nat.le_refl _)
  next =>
    apply (expressionStatement_lays order fuel standing).weaken (Nat.le_refl _)
    intro stmt last _ covers
    exact ⟨covers.1, covers.2⟩

/-- A block encloses its statements between its braces. -/
theorem blockBody_lays :
    Lays lexemes eof state.lastStop (blockBody eof (fuel + 1)) state (Encloses lexemes state) := by
  simp only [blockBody, discard_bind]
  refine .step isNext_apply (.step atEnd_apply ?_)
  split
  next =>
    apply Lays.expect order standing (Nat.le_refl _)
    intro brace last _ closes
    exact .pure closes.standing closes.le ⟨closes.le, brace, closes.among, closes.stop.symm⟩
  next =>
    apply (parts.declaration standing).bind (Nat.le_refl _)
    intro first middle standing reached within
    apply (parts.blockBody standing).bind reached
    intro others last standing further encloses
    exact .pure standing (Nat.le_trans reached further)
      ⟨encloses.sequence.toList_append within reached, encloses.stop⟩

end

/-- Statements are laid out with any amount of fuel. -/
theorem statementsLaid {lexemes : List Lexeme} (order : InOrder lexemes) (eof fuel : Nat) :
    StatementsLaid lexemes eof fuel := by
  induction fuel with
  | zero =>
      exact ⟨fun _ => .outOfFuel, fun _ _ => .outOfFuel, fun _ => .outOfFuel,
        fun _ _ => .outOfFuel, fun _ => .outOfFuel⟩
  | succ fuel parts =>
      exact ⟨declaration_lays order parts,
        fun behind standing => functionDeclaration_lays order parts standing behind,
        statement_lays order parts,
        fun behind standing => forStatement_lays order parts standing behind,
        blockBody_lays order parts⟩

/-- The statements of a program are in sequence. -/
theorem program_lays {lexemes : List Lexeme} (order : InOrder lexemes) (eof : Nat) :
    ∀ fuel {state}, Standing lexemes eof state →
      Lays lexemes eof state.lastStop (program eof fuel) state fun stmts last =>
        Stmt.InSequence lexemes state.lastStop last.lastStop stmts
  | 0, _, _ => .outOfFuel
  | fuel + 1, state, standing => by
      rw [program]
      refine .step atEnd_apply ?_
      split
      next => exact .pure standing (Nat.le_refl _) (Nat.le_refl state.lastStop)
      next =>
        apply ((statementsLaid order eof fuel).declaration standing).bind (Nat.le_refl _)
        intro first middle standing reached within
        apply (program_lays order eof fuel standing).bind reached
        intro others last standing further sequence
        exact .pure standing (Nat.le_trans reached further)
          (sequence.toList_append within reached)

/-- The statements of a text are laid out one after another, and the errors of its parser are at
their places. -/
theorem parseLexemes_laidOut {lexemes : List Lexeme} (order : InOrder lexemes) (eof : Nat) :
    (∃ last, Stmt.InSequence lexemes 0 last (parseLexemes eof lexemes []).program) ∧
      ∀ error ∈ (parseLexemes eof lexemes []).errors, Placed lexemes eof error := by
  have standing : Standing lexemes eof ⟨lexemes, 0, 0, #[]⟩ :=
    ⟨⟨[], rfl⟩, fun _ _ => Nat.zero_le _, nofun⟩
  obtain ⟨stmts, last, ended, -⟩ := program_reads eof lexemes #[]
  have lays := program_lays order eof (enoughFuel lexemes) standing
  unfold Lays at lays
  unfold parseLexemes EStateM.run
  rw [ended] at lays ⊢
  obtain ⟨standing, -, sequence⟩ := lays
  exact ⟨⟨last.lastStop, sequence⟩, standing.errors⟩

end Parser

end Lox
