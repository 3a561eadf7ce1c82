import Lox.Proofs.Layout.Statements
import Lox.Proofs.Scope.Numbering
import Lox.Proofs.Scope.Occurrences

namespace Lox

/-- The name that a statement declares in its scope. -/
def Stmt.name? : Stmt → Option Name
  | .variable _ name _ | .function _ name _ _ => some name
  | .expression .. | .print .. | .block .. | .branch .. | .loop .. | .giveBack .. => none

/-- The names that statements declare directly in their scope. -/
def Stmt.declaredIn (stmts : List Stmt) : List Name := stmts.filterMap Stmt.name?

/-- The offsets where occurrences start. -/
def Occurrence.starts (targets : List Occurrence) : List Nat :=
  targets.map fun target => target.span.start

/-- The offsets where names start. -/
def Name.starts (names : List Name) : List Nat := names.map fun name => name.span.start

mutual

/-- The offsets where the names and the occurrences in a statement start. -/
def Stmt.places : Stmt → List Nat
  | .expression _ value => Occurrence.starts value.targets
  | .print _ value => Occurrence.starts value.targets
  | .variable _ name initializer =>
      name.span.start :: Occurrence.starts (Expr.targetsOption initializer)
  | .function _ name parameters body =>
      name.span.start :: (Name.starts parameters ++ Stmt.placesAll body)
  | .block _ body => Stmt.placesAll body
  | .branch _ condition consequent none =>
      Occurrence.starts condition.targets ++ consequent.places
  | .branch _ condition consequent (some alternative) =>
      Occurrence.starts condition.targets ++ (consequent.places ++ alternative.places)
  | .loop _ condition body => Occurrence.starts condition.targets ++ body.places
  | .giveBack _ _ value => Occurrence.starts (Expr.targetsOption value)

def Stmt.placesAll : List Stmt → List Nat
  | [] => []
  | stmt :: rest => stmt.places ++ Stmt.placesAll rest

end

/-- A declared name starts before all of some offsets. -/
def Name.StartsBefore (name : Name) (places : List Nat) : Prop :=
  ∀ place ∈ places, name.span.start < place

mutual

/-- In an ordered statement, every name is declared before what can refer to it. -/
def Stmt.Ordered : Stmt → Prop
  | .variable _ name initializer =>
      Name.StartsBefore name (Occurrence.starts (Expr.targetsOption initializer))
  | .function _ name parameters body =>
      ((name :: parameters).Pairwise fun first second => first.span.start < second.span.start) ∧
        (∀ declared ∈ name :: parameters, Name.StartsBefore declared (Stmt.placesAll body)) ∧
        Stmt.OrderedAll body
  | .block _ body => Stmt.OrderedAll body
  | .branch _ _ consequent none => consequent.Ordered
  | .branch _ _ consequent (some alternative) => consequent.Ordered ∧ alternative.Ordered
  | .loop _ _ body => body.Ordered
  | .expression .. | .print .. | .giveBack .. => True

/-- What a statement of a scope declares starts before all that follows, and what later ones
declare starts behind all that is in it. -/
def Stmt.OrderedAll : List Stmt → Prop
  | [] => True
  | stmt :: rest =>
      (∀ name ∈ stmt.name?, Name.StartsBefore name (Stmt.placesAll rest)) ∧
        (∀ name ∈ Stmt.declaredIn rest, ∀ place ∈ stmt.places, place < name.span.start) ∧
        stmt.Ordered ∧ Stmt.OrderedAll rest

end

/-- The declared name is among the places of its statement. -/
theorem Stmt.name?_mem_places {name : Name} :
    ∀ {stmt : Stmt}, name ∈ stmt.name? → name.span.start ∈ stmt.places
  | .variable .., declares | .function .., declares => by
      cases declares
      exact List.mem_cons_self
  | .expression .., declares | .print .., declares | .block .., declares | .branch .., declares
  | .loop .., declares | .giveBack .., declares => by cases declares

/-- The declared names of statements are those of the first one and of the others. -/
theorem Stmt.declaredIn_cons (stmt : Stmt) (rest : List Stmt) :
    Stmt.declaredIn (stmt :: rest) = stmt.name?.toList ++ Stmt.declaredIn rest := by
  cases stmt <;> rfl

/-- The declared names are among the places of the statements. -/
theorem Stmt.declaredIn_subset {stmts : List Stmt} {name : Name}
    (declared : name ∈ Stmt.declaredIn stmts) : name.span.start ∈ Stmt.placesAll stmts := by
  induction stmts with
  | nil => cases declared
  | cons stmt rest ih =>
      obtain ⟨first, among, declares⟩ := List.mem_filterMap.1 declared
      rcases List.mem_cons.1 among with rfl | among
      · exact List.mem_append_left _ (Stmt.name?_mem_places declares)
      · exact List.mem_append_right _ (ih (List.mem_filterMap.2 ⟨first, among, declares⟩))

theorem Stmt.name?_of_silent : ∀ {stmt : Stmt}, stmt.declares = false → stmt.name? = none
  | .variable .., silent | .function .., silent => by cases silent
  | .expression .., _ | .print .., _ | .block .., _ | .branch .., _ | .loop .., _
  | .giveBack .., _ => rfl

/-- Offsets lie between two others. -/
def LieBetween (first last : Nat) (places : List Nat) : Prop :=
  ∀ place ∈ places, first ≤ place ∧ place < last

namespace LieBetween

variable {first last : Nat} {places others : List Nat}

theorem nil : LieBetween first last [] := nofun

/-- Places of two parts lie where both parts do. -/
theorem append (start : LieBetween first last places) (rest : LieBetween first last others) :
    LieBetween first last (places ++ others) := List.forall_mem_append.2 ⟨start, rest⟩

theorem cons {place : Nat} (start : first ≤ place) (stop : place < last)
    (rest : LieBetween first last places) : LieBetween first last (place :: places) :=
  List.forall_mem_cons.2 ⟨⟨start, stop⟩, rest⟩

/-- Places lie in every wider stretch. -/
theorem widen {before behind : Nat} (lie : LieBetween first last places) (start : before ≤ first)
    (stop : last ≤ behind) : LieBetween before behind places := fun place given =>
  ⟨Nat.le_trans start (lie place given).1, Nat.lt_of_lt_of_le (lie place given).2 stop⟩

theorem starts_append {targets more : List Occurrence}
    (start : LieBetween first last (Occurrence.starts targets))
    (rest : LieBetween first last (Occurrence.starts more)) :
    LieBetween first last (Occurrence.starts (targets ++ more)) := by
  rw [Occurrence.starts, List.map_append]
  exact start.append rest

end LieBetween

section
variable {lexemes : List Lexeme}

mutual

/-- The occurrences in an expression start inside of it. -/
theorem Expr.LaidOut.targets (order : InOrder lexemes) : ∀ {expr : Expr}, expr.LaidOut lexemes →
    LieBetween expr.span.start expr.span.stop (Occurrence.starts expr.targets)
  | .literal .., _ => .nil
  | .variable _, laid => .cons (Nat.le_refl _) (laid.bounded order).proper .nil
  | .assign _ target value, ⟨same, stands, follows, laid⟩ => by
      subst same
      have proper := (stands.bounded order).proper
      have inner := (laid.bounded order).proper
      have behind : target.span.start < value.span.stop := by omega
      change LieBetween target.span.start value.span.stop _
      exact .cons (Nat.le_refl _) behind ((laid.targets order).widen (by omega) (Nat.le_refl _))
  | .group _ inner, ⟨opening, closing, opens, closes, same, first, second, laid⟩ => by
      subst same
      have before := (opens.bounded order).proper
      have behind := (closes.bounded order).proper
      change LieBetween opening.start closing.stop _
      exact (laid.targets order).widen (by omega) (by omega)
  | .unary _ op operand, ⟨same, sign, follows, laid⟩ => by
      subst same
      have proper := (sign.bounded order).proper
      change LieBetween op.span.start operand.span.stop _
      exact (laid.targets order).widen (by omega) (Nat.le_refl _)
  | .binary _ op left right, ⟨same, sign, first, second, laidLeft, laidRight⟩
  | .logical _ op left right, ⟨same, sign, first, second, laidLeft, laidRight⟩ => by
      subst same
      have proper := (sign.bounded order).proper
      have before := (laidLeft.bounded order).proper
      have behind := (laidRight.bounded order).proper
      change LieBetween left.span.start right.span.stop _
      exact ((laidLeft.targets order).widen (Nat.le_refl _) (by omega)).starts_append
        ((laidRight.targets order).widen (by omega) (Nat.le_refl _))
  | .call _ paren callee given, ⟨same, closes, laid, between⟩ => by
      subst same
      have proper := (closes.bounded order).proper
      have before := (laid.bounded order).proper
      have others := between.le fun expr among laid => (laid.bounded order).proper
      change LieBetween callee.span.start paren.stop _
      exact ((laid.targets order).widen (Nat.le_refl _) (by omega)).starts_append
        ((between.targets order).widen (by omega) (by omega))

/-- The occurrences in expressions in a row lie in the stretch of the row. -/
theorem Expr.LaidOutBetween.targets (order : InOrder lexemes) {first last : Nat} :
    ∀ {given : List Expr}, Expr.LaidOutBetween lexemes first last given →
      LieBetween first last (Occurrence.starts (Expr.targetsAll given))
  | [], _ => .nil
  | expr :: rest, ⟨follows, laid, others⟩ => by
      have proper := (laid.bounded order).proper
      have behind := others.le fun expr among laid => (laid.bounded order).proper
      exact ((laid.targets order).widen follows behind).starts_append
        ((others.targets order).widen (by omega) (Nat.le_refl _))

end

/-- The occurrences in an expression lie in the span that it is laid out in. -/
theorem Expr.LaidOutIn.starts (order : InOrder lexemes) {span : Span} {expr : Expr}
    (laid : expr.LaidOutIn lexemes span) :
    LieBetween span.start span.stop (Occurrence.starts expr.targets) :=
  (laid.laid.targets order).widen laid.inside.start laid.inside.stop

theorem starts_of_option (order : InOrder lexemes) {span : Span} {given : Option Expr}
    (laid : ∀ value ∈ given, value.LaidOutIn lexemes span) :
    LieBetween span.start span.stop (Occurrence.starts (Expr.targetsOption given)) := by
  cases given with
  | none => exact .nil
  | some value => exact (laid value rfl).starts order

end

/-- Statements behind another one are in order with it. -/
theorem Stmt.orderedAll_cons {stmt : Stmt} {rest : List Stmt} {first middle last : Nat}
    (early : LieBetween first middle stmt.places)
    (late : LieBetween middle last (Stmt.placesAll rest)) (ordered : stmt.Ordered)
    (others : Stmt.OrderedAll rest) : Stmt.OrderedAll (stmt :: rest) := by
  refine ⟨fun name declares place given => ?_, fun name declared place given => ?_, ordered, others⟩
  · exact Nat.lt_of_lt_of_le (early _ (Stmt.name?_mem_places declares)).2 (late place given).1
  · exact Nat.lt_of_lt_of_le (early place given).2 (late _ (Stmt.declaredIn_subset declared)).1

/-- The parts of a counting loop are in order if the first one comes before the others. -/
theorem Stmt.forLoop_ordered {span : Span} {initial : Option Stmt} {test step : Option Expr}
    {body : Stmt} {first middle last : Nat} (above : first ≤ middle) (below : middle ≤ last)
    (starts : ∀ stmt ∈ initial, LieBetween first middle stmt.places ∧ stmt.Ordered)
    (tests : LieBetween middle last (Occurrence.starts (Expr.targetsOption test)))
    (steps : LieBetween middle last (Occurrence.starts (Expr.targetsOption step)))
    (repeated : LieBetween middle last body.places) (ordered : body.Ordered)
    (silent : body.declares = false) :
    LieBetween first last (Stmt.forLoop span initial test step body).places ∧
      (Stmt.forLoop span initial test step body).Ordered := by
  have condition : LieBetween middle last
      (Occurrence.starts (test.getD (.literal span (.bool true))).targets) := by
    cases test with
    | none => exact .nil
    | some test => exact tests
  -- The step stands before the body in the text, and neither of them declares a name.
  have loop : LieBetween middle last (Stmt.forLoop span none test step body).places ∧
      (Stmt.forLoop span none test step body).Ordered := by
    cases step with
    | none => exact ⟨condition.append repeated, ordered⟩
    | some step =>
        refine ⟨condition.append (repeated.append (steps.append .nil)), ?_, nofun, ordered, nofun,
          nofun, trivial, trivial⟩
        rw [Stmt.name?_of_silent silent]
        nofun
  cases initial with
  | none => exact ⟨loop.1.widen above (Nat.le_refl _), loop.2⟩
  | some stmt =>
      obtain ⟨early, orderedFirst⟩ := starts stmt rfl
      have late := loop.1.append (.nil : LieBetween middle last [])
      exact ⟨(early.widen (Nat.le_refl _) below).append (late.widen above (Nat.le_refl _)),
        Stmt.orderedAll_cons early late orderedFirst ⟨nofun, nofun, loop.2, trivial⟩⟩

namespace Parser

open Lox.Computation

/-- A statement that is read from one state to another is in order, and the statements under an `if`
or a loop declare nothing. -/
structure Arranged (state : State) (stmt : Stmt) (last : State) : Prop where
  within : LieBetween state.lastStop last.lastStop stmt.places
  ordered : stmt.Ordered
  proper : stmt.Proper

/-- Statements that are read one after another. -/
structure ArrangedAll (state : State) (stmts : List Stmt) (last : State) : Prop where
  within : LieBetween state.lastStop last.lastStop (Stmt.placesAll stmts)
  ordered : Stmt.OrderedAll stmts
  proper : Stmt.ProperAll stmts

section
variable {before state middle last : State}

/-- A statement is arranged in every wider stretch. -/
theorem Arranged.widen {stmt : Stmt} (arranged : Arranged state stmt middle)
    (start : before.lastStop ≤ state.lastStop) (stop : middle.lastStop ≤ last.lastStop) :
    Arranged before stmt last :=
  ⟨arranged.within.widen start stop, arranged.ordered, arranged.proper⟩

/-- A declaration that is not given up comes before the others. -/
theorem ArrangedAll.toList_append {given : Option Stmt} {stmts : List Stmt}
    (first : ∀ stmt ∈ given, Arranged state stmt middle) (rest : ArrangedAll middle stmts last)
    (reached : state.lastStop ≤ middle.lastStop) (further : middle.lastStop ≤ last.lastStop) :
    ArrangedAll state (given.toList ++ stmts) last := by
  cases given with
  | none => exact ⟨rest.within.widen reached (Nat.le_refl _), rest.ordered, rest.proper⟩
  | some stmt =>
      obtain ⟨within, ordered, proper⟩ := first stmt rfl
      exact ⟨(within.widen (Nat.le_refl _) further).append
          (rest.within.widen reached (Nat.le_refl _)),
        Stmt.orderedAll_cons within rest.within ordered rest.ordered, proper, rest.proper⟩

end

section
variable {lexemes : List Lexeme} {eof : Nat} (order : InOrder lexemes) (fuel : Nat) {state : State}
  (standing : Standing lexemes eof state)
include order standing

/-- The name of a variable comes before the occurrences in its initializer. -/
theorem variableDeclaration_arranges (start : Nat) :
    Lays lexemes eof state.lastStop (variableDeclaration eof fuel start) state
      (Arranged state) := by
  simp only [variableDeclaration, discard_bind]
  apply Lays.expectName order standing (Nat.le_refl _)
  intro name middle stands before stop standing
  have proper := (stands.bounded order).proper
  have passed : state.lastStop ≤ middle.lastStop := by omega
  -- With and without an initializer the declaration goes on to the semicolon.
  have closing (initializer : Option Expr) (reached : State)
      (standing : Standing lexemes eof reached) (above : middle.lastStop ≤ reached.lastStop)
      (within : LieBetween middle.lastStop reached.lastStop
        (Occurrence.starts (Expr.targetsOption initializer))) :
      Lays lexemes eof state.lastStop (do
        let _ ← expect eof .semicolon
        let span ← spanFrom start
        return Stmt.variable span name initializer) reached (Arranged state) := by
    apply Lays.expect order standing (Nat.le_trans passed above)
    intro lexeme last _ closes
    have further := Nat.le_trans above closes.le
    refine .step spanFrom_apply (.pure closes.standing (Nat.le_trans passed further)
      ⟨.cons before (by omega) (within.widen passed closes.le), fun place given => ?_, trivial⟩)
    exact Nat.lt_of_lt_of_le (stop ▸ proper) (within place given).1
  apply Lays.accept order standing
  · intro sign next _ passes
    have value := (expressionsLaid order eof fuel).expression passes.standing
    apply value.mapSome.bind (Nat.le_trans passed passes.le)
    intro initializer last standing reached laid
    refine closing initializer last standing (Nat.le_trans passes.le reached) ?_
    exact (starts_of_option order fun value given => (laid value given).laidOutIn).widen passes.le
      (Nat.le_refl _)
  · exact .step (pure_apply none middle) (closing none middle standing (Nat.le_refl _) .nil)

/-- The occurrences of an expression statement lie in it, and it declares nothing. -/
theorem expressionStatement_arranges :
    Lays lexemes eof state.lastStop (expressionStatement eof fuel) state fun stmt last =>
      Arranged state stmt last ∧ stmt.declares = false := by
  simp only [expressionStatement, discard_bind]
  refine .step here_apply ?_
  apply ((expressionsLaid order eof fuel).expression standing).bind (Nat.le_refl _)
  intro value middle standing reached covers
  apply Lays.expect order standing reached
  intro closing last _ closes
  have within := covers.laidOutIn.starts order
  exact .step spanFrom_apply (.pure closes.standing (Nat.le_trans reached closes.le)
    ⟨⟨within.widen (Nat.le_refl _) closes.le, trivial, trivial⟩, rfl⟩)

theorem loopStart_arranges :
    Lays lexemes eof state.lastStop (loopStart eof fuel) state fun initial last =>
      ∀ stmt ∈ initial, Arranged state stmt last := by
  rw [loopStart]
  apply Lays.accept order standing
  · intro lexeme last _ passes
    exact .pure passes.standing passes.le (by simp)
  refine .step isNext_apply ?_
  split
  next declares =>
    apply Lays.takeSymbol order standing (of_decide_eq_true declares)
    intro keyword middle _ passes
    have declared := variableDeclaration_arranges order fuel passes.standing keyword.span.start
    apply declared.mapSome.weaken passes.le
    intro initial last _ arranged stmt given
    exact (arranged stmt given).widen passes.le (Nat.le_refl _)
  next =>
    apply (expressionStatement_arranges order fuel standing).mapSome.weaken (Nat.le_refl _)
    intro initial last _ arranged stmt given
    exact (arranged stmt given).1

/-- The parameters start in the order in which they are listed. -/
theorem parameters_arranges (length : Nat) :
    Lays lexemes eof state.lastStop (parameters eof fuel length) state fun names last =>
      LieBetween state.lastStop last.lastStop (Name.starts names) ∧
        names.Pairwise fun first second => first.span.start < second.span.start := by
  induction fuel generalizing state length with
  | zero => exact .outOfFuel
  | succ fuel ih =>
      rw [parameters]
      apply Lays.checkLength standing
      intro middle standing same
      apply Lays.expectName order standing (Nat.le_of_eq same.symm)
      intro name next stands before stop standing
      have proper := (stands.bounded order).proper
      have starts : state.lastStop ≤ name.span.start := same ▸ before
      have ends : name.span.start < next.lastStop := by omega
      have passed : state.lastStop ≤ next.lastStop := by omega
      apply Lays.accept order standing
      · intro comma behind _ passes
        apply (ih passes.standing (length + 1)).bind (Nat.le_trans passed passes.le)
        rintro others last standing reached ⟨within, sorted⟩
        have above := Nat.le_trans passes.le reached
        refine .pure standing (Nat.le_trans passed above)
          ⟨.cons starts (Nat.lt_of_lt_of_le ends above)
            (within.widen (Nat.le_trans passed passes.le) (Nat.le_refl _)),
            List.pairwise_cons.2 ⟨fun other given => ?_, sorted⟩⟩
        have later := (within _ (List.mem_map_of_mem given)).1
        have comma := passes.le
        omega
      · exact .pure standing passed ⟨.cons starts ends .nil, List.pairwise_singleton _ _⟩

end

section
variable (lexemes : List Lexeme) (eof : Nat)

/-- The productions of statements arrange their trees with an amount of fuel. -/
structure StatementsArranged (fuel : Nat) : Prop where
  declaration : ∀ {state}, Standing lexemes eof state →
    Lays lexemes eof state.lastStop (declaration eof fuel) state fun given last =>
      ∀ stmt ∈ given, Arranged state stmt last
  functionDeclaration : ∀ start {state}, Standing lexemes eof state →
    Lays lexemes eof state.lastStop (functionDeclaration eof fuel start) state (Arranged state)
  statement : ∀ {state}, Standing lexemes eof state →
    Lays lexemes eof state.lastStop (statement eof fuel) state fun stmt last =>
      Arranged state stmt last ∧ stmt.declares = false
  forStatement : ∀ start {state}, Standing lexemes eof state →
    Lays lexemes eof state.lastStop (forStatement eof fuel start) state fun stmt last =>
      Arranged state stmt last ∧ stmt.declares = false
  blockBody : ∀ {state}, Standing lexemes eof state →
    Lays lexemes eof state.lastStop (blockBody eof fuel) state (ArrangedAll state)

end

section
variable {lexemes : List Lexeme} {eof fuel : Nat} {state : State} (order : InOrder lexemes)
  (parts : StatementsArranged lexemes eof fuel) (standing : Standing lexemes eof state)
include order parts standing

/-- A declaration is arranged in the stretch that is read for it. -/
theorem declaration_arranges :
    Lays lexemes eof state.lastStop (declaration eof (fuel + 1)) state fun given last =>
      ∀ stmt ∈ given, Arranged state stmt last := by
  rw [declaration]
  apply attempt_lays
  refine .step here_apply ?_
  apply Lays.accept order standing
  · intro keyword middle _ passes
    apply (parts.functionDeclaration _ passes.standing).weaken passes.le
    intro stmt last _ arranged
    exact arranged.widen passes.le (Nat.le_refl _)
  apply Lays.accept order standing
  · intro keyword middle _ passes
    apply (variableDeclaration_arranges order fuel passes.standing _).weaken passes.le
    intro stmt last _ arranged
    exact arranged.widen passes.le (Nat.le_refl _)
  · exact (parts.statement standing).weaken (Nat.le_refl _) fun stmt last _ arranged => arranged.1

/-- A function's name, its parameters and its body come in this order. -/
theorem functionDeclaration_arranges (start : Nat) :
    Lays lexemes eof state.lastStop (functionDeclaration eof (fuel + 1) start) state
      (Arranged state) := by
  simp only [functionDeclaration, discard_bind]
  apply Lays.expectName order standing (Nat.le_refl _)
  intro name middle stands before stop standing
  have proper := (stands.bounded order).proper
  have passed : state.lastStop ≤ middle.lastStop := by omega
  apply Lays.expect order standing passed
  intro opening next _ opens
  have open_ := Nat.le_trans passed opens.le
  -- With and without parameters the declaration goes on to its body.
  have closing (given : List Name) (reached : State) (standing : Standing lexemes eof reached)
      (above : next.lastStop ≤ reached.lastStop)
      (listed : LieBetween next.lastStop reached.lastStop (Name.starts given))
      (sorted : given.Pairwise fun first second => first.span.start < second.span.start) :
      Lays lexemes eof state.lastStop (do
        let _ ← expect eof .rightParen
        let _ ← expect eof .leftBrace
        let body ← blockBody eof fuel
        let span ← spanFrom start
        return Stmt.function span name given body) reached (Arranged state) := by
    apply Lays.expect order standing (Nat.le_trans open_ above)
    intro paren inside _ closes
    apply Lays.expect order closes.standing (Nat.le_trans open_ (Nat.le_trans above closes.le))
    intro brace entered _ enters
    have inner := Nat.le_trans closes.le enters.le
    have there := Nat.le_trans above inner
    apply (parts.blockBody enters.standing).bind (Nat.le_trans open_ there)
    intro body last standing further arranged
    have whole := Nat.le_trans open_ (Nat.le_trans there further)
    have passing := opens.le
    refine .step spanFrom_apply (.pure standing whole ⟨.cons before (by omega)
      ((listed.widen open_ (Nat.le_trans inner further)).append
        (arranged.within.widen (Nat.le_trans open_ there) (Nat.le_refl _))),
      ⟨List.pairwise_cons.2 ⟨fun parameter among => ?_, sorted⟩,
        List.forall_mem_cons.2 ⟨fun place given => ?_, fun parameter among place given => ?_⟩,
        arranged.ordered⟩, arranged.proper⟩)
    · have later := (listed _ (List.mem_map_of_mem among)).1
      omega
    · have later := (arranged.within place given).1
      omega
    · have early := (listed _ (List.mem_map_of_mem among)).2
      have later := (arranged.within place given).1
      omega
  refine .step isNext_apply ?_
  split
  next =>
    exact .step (pure_apply [] next)
      (closing [] next opens.standing (Nat.le_refl _) .nil .nil)
  next =>
    apply (parameters_arranges order fuel opens.standing 0).bind open_
    rintro given reached standing above ⟨listed, sorted⟩
    exact closing given reached standing above listed sorted

/-- A loop's parts come in the order in which the loop's statements use them. -/
theorem forStatement_arranges (start : Nat) :
    Lays lexemes eof state.lastStop (forStatement eof (fuel + 1) start) state fun stmt last =>
      Arranged state stmt last ∧ stmt.declares = false := by
  simp only [forStatement, discard_bind]
  apply Lays.expect order standing (Nat.le_refl _)
  intro opening first _ opens
  apply (loopStart_arranges order fuel opens.standing).bind opens.le
  intro initial second standing initialReached starts
  have second_le : state.lastStop ≤ second.lastStop := Nat.le_trans opens.le initialReached
  apply (expressionUnless_lays order fuel standing .semicolon).bind second_le
  intro test third standing testReached testLaid
  have third_le : state.lastStop ≤ third.lastStop := Nat.le_trans second_le testReached
  apply Lays.expect order standing third_le
  intro separator fourth _ separates
  have fourth_le : state.lastStop ≤ fourth.lastStop := Nat.le_trans third_le separates.le
  apply (expressionUnless_lays order fuel separates.standing .rightParen).bind fourth_le
  intro step fifth standing stepReached stepLaid
  have fifth_le : state.lastStop ≤ fifth.lastStop := Nat.le_trans fourth_le stepReached
  apply Lays.expect order standing fifth_le
  intro closing sixth _ closes
  have sixth_le : state.lastStop ≤ sixth.lastStop := Nat.le_trans fifth_le closes.le
  apply (parts.statement closes.standing).bind sixth_le
  rintro body last standing reached ⟨repeated, silent⟩
  have last_le : state.lastStop ≤ last.lastStop := Nat.le_trans sixth_le reached
  have stepEnds : fifth.lastStop ≤ last.lastStop := Nat.le_trans closes.le reached
  have testEnds : third.lastStop ≤ last.lastStop :=
    Nat.le_trans separates.le (Nat.le_trans stepReached stepEnds)
  have testBegins : second.lastStop ≤ fourth.lastStop := Nat.le_trans testReached separates.le
  have bodyBegins : second.lastStop ≤ sixth.lastStop :=
    Nat.le_trans testBegins (Nat.le_trans stepReached closes.le)
  obtain ⟨within, ordered⟩ := Stmt.forLoop_ordered second_le (Nat.le_trans testReached testEnds)
    (fun stmt given =>
      ⟨(starts stmt given).within.widen opens.le (Nat.le_refl _), (starts stmt given).ordered⟩)
    ((starts_of_option order testLaid).widen (Nat.le_refl _) testEnds)
    ((starts_of_option order stepLaid).widen testBegins stepEnds)
    (repeated.within.widen bodyBegins (Nat.le_refl _)) repeated.ordered silent
  obtain ⟨quiet, proper⟩ := Grammar.forLoop_proper ⟨start, last.lastStop⟩ test step
    (fun stmt given => (starts stmt given).proper) ⟨silent, repeated.proper⟩
  exact .step spanFrom_apply (.pure standing last_le ⟨⟨within, ordered, proper⟩, quiet⟩)

omit parts in
/-- The occurrences in a condition lie in the stretch that is read for it. -/
theorem condition_starts :
    Lays lexemes eof state.lastStop (condition eof fuel) state fun test last =>
      LieBetween state.lastStop last.lastStop (Occurrence.starts test.targets) :=
  (condition_lays order fuel standing).weaken (Nat.le_refl _) fun _ _ _ laid => laid.starts order

/-- What follows the keyword of a branch. -/
theorem branch_arranges (start : Nat) :
    Lays lexemes eof state.lastStop (do
      let test ← condition eof fuel
      let consequent ← statement eof fuel
      let alternative ← if ← accept .else then some <$> statement eof fuel else pure none
      return Stmt.branch (← spanFrom start) test consequent alternative) state fun stmt last =>
      Arranged state stmt last ∧ stmt.declares = false := by
  apply (condition_starts order standing).bind (Nat.le_refl _)
  intro test second standing testReached tests
  apply (parts.statement standing).bind testReached
  rintro consequent third standing reached ⟨chosen, silent⟩
  have third_le := Nat.le_trans testReached reached
  have early := tests.widen (Nat.le_refl _) reached
  have middle := chosen.within.widen testReached (Nat.le_refl _)
  apply Lays.accept order standing
  · intro word fourth _ separates
    simp only [if_true, map_eq_pure_bind, bind_assoc, pure_bind]
    apply (parts.statement separates.standing).bind (Nat.le_trans third_le separates.le)
    rintro alternative last standing further ⟨refused, other⟩
    have above := Nat.le_trans separates.le further
    have late := refused.within.widen (Nat.le_trans third_le separates.le) (Nat.le_refl _)
    exact .step spanFrom_apply (.pure standing (Nat.le_trans third_le above)
      ⟨⟨(early.widen (Nat.le_refl _) above).append
          ((middle.widen (Nat.le_refl _) above).append late),
        ⟨chosen.ordered, refused.ordered⟩, ⟨silent, chosen.proper⟩, other, refused.proper⟩, rfl⟩)
  · exact .step (pure_apply none third) (.step spanFrom_apply (.pure standing third_le
      ⟨⟨early.append middle, chosen.ordered, silent, chosen.proper⟩, rfl⟩))

/-- A statement is arranged in its stretch, and it declares nothing. -/
theorem statement_arranges :
    Lays lexemes eof state.lastStop (statement eof (fuel + 1)) state fun stmt last =>
      Arranged state stmt last ∧ stmt.declares = false := by
  simp only [statement, discard_bind]
  refine .step here_apply (.step peek?_apply ?_)
  -- What goes on behind the keyword of the statement arranges the statement.
  have started {keyword : Lexeme} {middle last : State} {stmt : Stmt}
      (passes : Passes lexemes eof state keyword middle)
      (arranged : Arranged middle stmt last ∧ stmt.declares = false) :
      Arranged state stmt last ∧ stmt.declares = false :=
    ⟨arranged.1.widen passes.le (Nat.le_refl _), arranged.2⟩
  split
  next next =>
    apply Lays.takeSymbol order standing next
    intro keyword middle _ passes
    apply (parts.forStatement _ passes.standing).weaken passes.le
    exact fun stmt last _ arranged => started passes arranged
  next next =>
    apply Lays.takeSymbol order standing next
    intro keyword middle _ passes
    apply (branch_arranges order parts passes.standing _).weaken passes.le
    exact fun stmt last _ arranged => started passes arranged
  next next =>
    apply Lays.takeSymbol order standing next
    intro keyword middle _ passes
    apply ((expressionsLaid order eof fuel).expression passes.standing).bind passes.le
    intro value second standing reached covers
    have second_le := Nat.le_trans passes.le reached
    apply Lays.expect order standing second_le
    intro closing last _ closes
    have within := covers.laidOutIn.starts order
    exact .step spanFrom_apply (.pure closes.standing (Nat.le_trans second_le closes.le)
      (started passes ⟨⟨within.widen (Nat.le_refl _) closes.le, trivial, trivial⟩, rfl⟩))
  next next =>
    apply Lays.takeSymbol order standing next
    intro keyword middle spelled passes
    apply (expressionUnless_lays order fuel passes.standing .semicolon).bind passes.le
    intro value second standing reached laid
    have second_le := Nat.le_trans passes.le reached
    apply Lays.expect order standing second_le
    intro closing last _ closes
    have within := starts_of_option order laid
    exact .step spanFrom_apply (.pure closes.standing (Nat.le_trans second_le closes.le)
      (started passes ⟨⟨within.widen (Nat.le_refl _) closes.le, trivial, trivial⟩, rfl⟩))
  next next =>
    apply Lays.takeSymbol order standing next
    intro keyword middle _ passes
    apply (condition_starts order passes.standing).bind passes.le
    intro test second standing testReached tests
    have second_le := Nat.le_trans passes.le testReached
    apply (parts.statement standing).bind second_le
    rintro body last standing reached ⟨repeated, silent⟩
    exact .step spanFrom_apply (.pure standing (Nat.le_trans second_le reached)
      (started passes ⟨⟨(tests.widen (Nat.le_refl _) reached).append
          (repeated.within.widen testReached (Nat.le_refl _)),
        repeated.ordered, silent, repeated.proper⟩, rfl⟩))
  next next =>
    apply Lays.takeSymbol order standing next
    intro keyword middle _ passes
    apply (parts.blockBody passes.standing).bind passes.le
    intro body last standing reached arranged
    exact .step spanFrom_apply (.pure standing (Nat.le_trans passes.le reached)
      (started passes ⟨⟨arranged.within, arranged.ordered, arranged.proper⟩, rfl⟩))
  next => exact expressionStatement_arranges order fuel standing

/-- The statements of a block are arranged one behind the other. -/
theorem blockBody_arranges :
    Lays lexemes eof state.lastStop (blockBody eof (fuel + 1)) state (ArrangedAll state) := by
  simp only [blockBody, discard_bind]
  refine .step isNext_apply (.step atEnd_apply ?_)
  split
  next =>
    apply Lays.expect order standing (Nat.le_refl _)
    intro brace last _ closes
    exact .pure closes.standing closes.le ⟨.nil, trivial, trivial⟩
  next =>
    apply (parts.declaration standing).bind (Nat.le_refl _)
    intro first middle standing reached arranged
    apply (parts.blockBody standing).bind reached
    intro others last standing further rest
    exact .pure standing (Nat.le_trans reached further)
      (.toList_append arranged rest reached further)

end

/-- Statements are arranged with any amount of fuel. -/
theorem statementsArranged {lexemes : List Lexeme} (order : InOrder lexemes) (eof fuel : Nat) :
    StatementsArranged lexemes eof fuel := by
  induction fuel with
  | zero =>
      exact ⟨fun _ => .outOfFuel, fun _ _ _ => .outOfFuel, fun _ => .outOfFuel,
        fun _ _ _ => .outOfFuel, fun _ => .outOfFuel⟩
  | succ fuel parts =>
      exact ⟨declaration_arranges order parts,
        fun start _ standing => functionDeclaration_arranges order parts standing start,
        statement_arranges order parts,
        fun start _ standing => forStatement_arranges order parts standing start,
        blockBody_arranges order parts⟩

/-- The statements of a program are arranged one behind the other. -/
theorem program_arranges {lexemes : List Lexeme} (order : InOrder lexemes) (eof : Nat) :
    ∀ fuel {state}, Standing lexemes eof state →
      Lays lexemes eof state.lastStop (program eof fuel) state (ArrangedAll state)
  | 0, _, _ => .outOfFuel
  | fuel + 1, state, standing => by
      rw [program]
      refine .step atEnd_apply ?_
      split
      next => exact .pure standing (Nat.le_refl _) ⟨.nil, trivial, trivial⟩
      next =>
        apply ((statementsArranged order eof fuel).declaration standing).bind (Nat.le_refl _)
        intro first middle standing reached arranged
        apply (program_arranges order eof fuel standing).bind reached
        intro others last standing further rest
        exact .pure standing (Nat.le_trans reached further)
          (.toList_append arranged rest reached further)

/-- The statements that are read from lexemes are in order, and those under an `if` or a loop
declare nothing. -/
theorem parseLexemes_ordered {lexemes : List Lexeme} (order : InOrder lexemes) (eof : Nat) :
    Stmt.OrderedAll (parseLexemes eof lexemes []).program ∧
      Stmt.ProperAll (parseLexemes eof lexemes []).program := by
  have standing : Standing lexemes eof ⟨lexemes, 0, 0, #[]⟩ :=
    ⟨⟨[], rfl⟩, fun _ _ => Nat.zero_le _, nofun⟩
  obtain ⟨stmts, last, ended, -⟩ := program_reads eof lexemes #[]
  have lays := program_arranges order eof (enoughFuel lexemes) standing
  unfold Lays at lays
  unfold parseLexemes EStateM.run
  rw [ended] at lays ⊢
  obtain ⟨-, -, arranged⟩ := lays
  exact ⟨arranged.ordered, arranged.proper⟩

end Parser

end Lox
