import Lox.Proofs.Dead.Pruning
import Lox.Proofs.Sugar.Places

namespace Lox

namespace Grammar

open Lox.Parser (Spells leading)
open Relabeling (unlabeled)

/-- A counting loop is pruned to the same when its body is. -/
theorem countingLoop_pruned {body other : Stmt} (same : other.pruned = body.pruned) (span : Span)
    (first : Option Stmt) (condition step : Option Expr) :
    (countingLoop span first condition step other).pruned =
      (countingLoop span first condition step body).pruned := by
  cases step <;> cases first <;>
    simp [countingLoop, loopBody, loopBlock, Stmt.pruned, Stmt.prunedAll, same,
      Stmt.givesBack_congr same]

/-- A counting loop gives back no value. -/
theorem countingLoop_givesBack (span : Span) (first : Option Stmt) (condition step : Option Expr)
    (body : Stmt) : (countingLoop span first condition step body).givesBack = false := by
  cases step <;> cases first <;> rfl

/-- The symbols behind which a declaration of a list stands. -/
def endsDeclaration : Symbol → Bool
  | .leftBrace | .rightBrace | .semicolon => true
  | _ => false

/-- Lexemes of which the last one opens a block or ends a declaration. -/
def EndsDeclaration (lexemes : List Lexeme) : Prop :=
  ∃ lexeme symbol, lexemes.getLast? = some lexeme ∧ Spells symbol lexeme ∧
    endsDeclaration symbol = true

/-- Lexemes behind which a declaration of a list stands: there are none, or the last one opens a block
or ends a declaration. -/
def AtDeclaration (before : List Lexeme) : Prop := before = [] ∨ EndsDeclaration before

/-- Lexemes form a statement that gives back a value. -/
def Returns (lexemes : List Lexeme) : Prop :=
  ∃ first stmt dangling next, Statement .nearest first lexemes stmt dangling next ∧
    stmt.givesBack = true

def Listed (lexemes : List Lexeme) : Prop :=
  ∃ first stmts next, Declarations .nearest first lexemes stmts next

/-- Lexemes before which a list of declarations ends. -/
def Closed (after : List Lexeme) : Prop := after = [] ∨ leading after = some .rightBrace

/-- Tokens make a declaration that is pruned to the same as another one. -/
def PrunesDeclaration (tokens : List Token) (stmt : Stmt) : Prop :=
  ∃ other, Makes (Declaration .nearest) unlabeled.stmt tokens other ∧ other.pruned = stmt.pruned

def PrunesStatement (dangling : Bool) (tokens : List Token) (stmt : Stmt) : Prop :=
  ∃ other, MakesStatement dangling tokens other ∧ other.pruned = stmt.pruned

def PrunesDeclarations (tokens : List Token) (stmts : List Stmt) : Prop :=
  ∃ others, MakesDeclarations tokens others ∧ Stmt.prunedAll others = Stmt.prunedAll stmts

section
variable {front rest : List Lexeme} {lexeme : Lexeme} {symbol : Symbol}

/-- Lexemes end a declaration if their last part does. -/
theorem EndsDeclaration.append (front : List Lexeme) (ends : EndsDeclaration rest) :
    EndsDeclaration (front ++ rest) := by
  obtain ⟨lexeme, symbol, last, spelled⟩ := ends
  exact ⟨lexeme, symbol, by simp [List.getLast?_append, last], spelled⟩

/-- What is left of lexemes stands at a declaration if the whole does. -/
theorem AtDeclaration.behind (listed : AtDeclaration (front ++ rest)) : AtDeclaration rest := by
  rcases listed with none | ⟨lexeme, symbol, last, spelled⟩
  · exact .inl (List.append_eq_nil_iff.1 none).2
  · cases rest with
    | nil => exact .inl rfl
    | cons first rest =>
        exact .inr ⟨lexeme, symbol, by
          simpa [List.getLast?_append, List.getLast?_cons] using last, spelled⟩

/-- A statement in front of which there is something else is in no list. -/
theorem AtDeclaration.further (listed : AtDeclaration (front ++ rest))
    (last : front.getLast? = some lexeme) (spelled : Spells symbol lexeme)
    (other : endsDeclaration symbol = false := by decide) : rest ≠ [] := by
  rintro rfl
  rw [List.append_nil] at listed
  rcases listed with rfl | ⟨found, mark, also, marked, ends⟩
  · cases last
  · cases last.symm.trans also
    obtain rfl := Token.symbol.inj (spelled.symm.trans marked)
    cases other.symm.trans ends

end

/-- Behind some lexemes a part of a program holds a statement that gives back a value and the
declarations behind it in its list, and the part is pruned to the same with others in their place. -/
def Cuts (context before tail : List Lexeme) (whole : List Token → Prop) : Prop :=
  ∃ returned dead behind, tail = returned ++ (dead ++ behind) ∧ Returns returned ∧ Listed dead ∧
    Closed (behind ++ context) ∧ ∀ tokens stmts, MakesDeclarations tokens stmts →
      whole (before.map Lexeme.token ++
        (returned.map Lexeme.token ++ (tokens ++ behind.map Lexeme.token)))

namespace Cuts

variable {context start before tail others : List Lexeme} {whole other : List Token → Prop}

/-- A cut inside a part between two others is a cut of the whole. -/
theorem within (cuts : Cuts (others ++ context) before tail whole)
    (carried : ∀ tokens, whole tokens →
      other (start.map Lexeme.token ++ (tokens ++ others.map Lexeme.token))) :
    Cuts context (start ++ before) (tail ++ others) other := by
  obtain ⟨returned, dead, behind, rfl, returns, listed, closed, replaced⟩ := cuts
  refine ⟨returned, dead, behind ++ others, ?_, returns, listed, ?_, fun tokens stmts given => ?_⟩
  · simp only [List.append_assoc]
  · rwa [List.append_assoc]
  · simpa only [List.map_append, List.append_assoc] using carried _ (replaced tokens stmts given)

/-- A cut behind a first part is a cut of the whole. -/
theorem behind (cuts : Cuts context before tail whole)
    (carried : ∀ tokens, whole tokens → other (start.map Lexeme.token ++ tokens)) :
    Cuts context (start ++ before) tail other := by
  obtain ⟨returned, dead, behind, rfl, returns, listed, closed, replaced⟩ := cuts
  refine ⟨returned, dead, behind, rfl, returns, listed, closed, fun tokens stmts given => ?_⟩
  simpa only [List.map_append, List.append_assoc] using carried _ (replaced tokens stmts given)

end Cuts

/-- A variable declaration ends with a semicolon. -/
theorem VariableDeclaration.ends {first next : Nat} {lexemes : List Lexeme} {stmt : Stmt} :
    VariableDeclaration first lexemes stmt next → EndsDeclaration lexemes
  | .declare _ _ closes => ⟨_, _, by simp [List.getLast?_cons], closes, rfl⟩

/-- An expression statement ends with a semicolon. -/
theorem ExpressionStatement.ends {first next : Nat} {lexemes : List Lexeme} {stmt : Stmt} :
    ExpressionStatement first lexemes stmt next → EndsDeclaration lexemes
  | .evaluate _ closes => ⟨_, _, by simp, closes, rfl⟩

/-- A statement ends with a semicolon or a brace. -/
theorem Statement.ends {attachment : Attachment} {first next : Nat} {lexemes : List Lexeme}
    {stmt : Stmt} {dangling : Bool} :
    Statement attachment first lexemes stmt dangling next → EndsDeclaration lexemes
  | .forLoop _ _ _ _ _ _ _ repeated => by
      obtain ⟨lexeme, symbol, last, spelled⟩ := repeated.ends
      exact ⟨lexeme, symbol, by simp [List.getLast?_cons, List.getLast?_append, last], spelled⟩
  | .branch _ _ _ _ chosen => by
      obtain ⟨lexeme, symbol, last, spelled⟩ := chosen.ends
      exact ⟨lexeme, symbol, by simp [List.getLast?_cons, List.getLast?_append, last], spelled⟩
  | .alternative _ _ _ _ _ _ _ refused => by
      obtain ⟨lexeme, symbol, last, spelled⟩ := refused.ends
      exact ⟨lexeme, symbol, by simp [List.getLast?_cons, List.getLast?_append, last], spelled⟩
  | .loop _ _ _ _ repeated => by
      obtain ⟨lexeme, symbol, last, spelled⟩ := repeated.ends
      exact ⟨lexeme, symbol, by simp [List.getLast?_cons, List.getLast?_append, last], spelled⟩
  | .print _ _ closes | .giveBack _ _ closes | .block _ _ closes =>
      ⟨_, _, by simp [List.getLast?_cons], closes, rfl⟩
  | .expression evaluated => evaluated.ends

/-- A declaration ends with a semicolon or a brace. -/
theorem Declaration.ends {attachment : Attachment} {first next : Nat} {lexemes : List Lexeme}
    {stmt : Stmt} (form : Declaration attachment first lexemes stmt next) :
    EndsDeclaration lexemes := by
  cases form with
  | function _ _ _ _ _ _ bodyCloses =>
      exact ⟨_, _, by simp [List.getLast?_cons, List.getLast?_append], bodyCloses, rfl⟩
  | «variable» declared => exact declared.ends
  | statement stated => exact stated.ends

/-- Behind a list of declarations another one may stand. -/
theorem Declarations.ends {attachment : Attachment} {first next : Nat} {lexemes : List Lexeme}
    {stmts : List Stmt} (form : Declarations attachment first lexemes stmts next) :
    AtDeclaration lexemes := by
  induction stmts generalizing first lexemes with
  | nil =>
      cases form
      exact .inl rfl
  | cons stmt stmts ih =>
      cases form with
      | more declared declarations =>
          rcases ih declarations with rfl | ends
          · rw [List.append_nil]
            exact .inr declared.ends
          · exact .inr (ends.append _)

/-- A declaration that starts with the keyword of a statement that gives back a value is one. -/
theorem Declaration.returns {keyword : Lexeme} {first next : Nat} {lexemes : List Lexeme}
    {stmt : Stmt} (form : Declaration .nearest first (keyword :: lexemes) stmt next)
    (opens : Spells .return keyword) :
    stmt.givesBack = true ∧
      ∃ dangling, Statement .nearest first (keyword :: lexemes) stmt dangling next := by
  cases form with
  | function other => cases opens.symm.trans other
  | «variable» declared =>
      cases declared with
      | declare other => cases opens.symm.trans other
  | @statement _ _ _ _ dangling stated =>
      refine ⟨?_, dangling, stated⟩
      generalize same : keyword :: lexemes = whole at stated
      cases stated with
      | giveBack => rfl
      | forLoop other | branch other | alternative other | print other | loop other | block other =>
          cases same
          cases opens.symm.trans other
      | expression evaluated =>
          subst same
          exact absurd (Parser.symbol?_eq_some.2 opens)
            ((Parser.expressionStatement_opens evaluated).leading_ne rfl [])

mutual

/-- A return that stands inside a declaration cuts a list of declarations there. -/
theorem Declaration.cuts {context before tail : List Lexeme} {keyword : Lexeme} {first next : Nat}
    {lexemes : List Lexeme} {stmt : Stmt} (opens : Spells .return keyword) :
    Declaration .nearest first lexemes stmt next → before ≠ [] → AtDeclaration before →
      lexemes = before ++ keyword :: tail →
        Cuts context before (keyword :: tail) (PrunesDeclaration · (unlabeled.stmt stmt))
  | .variable declared, _, _, split => declared.plain.absurd opens split
  | .statement stated, further, listed, split => by
      obtain ⟨returned, dead, behind, same, returns, following, closed, replaced⟩ :
          Cuts context _ _ _ := stated.cuts opens further listed split
      refine ⟨returned, dead, behind, same, returns, following, closed, fun tokens stmts given => ?_⟩
      obtain ⟨other, makes, pruned⟩ := replaced tokens stmts given
      exact ⟨other, makes.imp .statement, pruned⟩
  | .function begins listOpens parameters listCloses bodyOpens declarations bodyCloses, _, listed,
      split => by
      obtain ⟨later, rfl, inside⟩ := (header_plain begins listOpens parameters listCloses
        bodyOpens).skip opens (by simpa using split)
      obtain ⟨others, body, same⟩ := (Plain.sign bodyCloses .nil).ahead opens inside
      rw [same]
      refine (declarations.cuts opens ?_ listed.behind body).within ?_
      · exact .inr (Parser.symbol?_eq_some.2 bodyCloses)
      rintro tokens ⟨others, makes, pruned⟩
      rw [header_tokens begins listOpens listCloses bodyOpens, List.map_singleton, bodyCloses]
      exact ⟨_, function_makes parameters makes, congrArg (Stmt.function _ _ _) pruned⟩

/-- A return that stands inside a statement cuts a list of declarations there. -/
theorem Statement.cuts {context before tail : List Lexeme} {keyword : Lexeme} {first next : Nat}
    {lexemes : List Lexeme} {stmt : Stmt} {dangling : Bool} (opens : Spells .return keyword) :
    Statement .nearest first lexemes stmt dangling next → before ≠ [] → AtDeclaration before →
      lexemes = before ++ keyword :: tail →
        Cuts context before (keyword :: tail) (PrunesStatement dangling · (unlabeled.stmt stmt))
  | .forLoop begins partsOpen starts tests separates steps partsClose repeated, further, listed,
      split => by
      obtain ⟨lexeme, before, rfl⟩ := List.exists_cons_of_ne_nil further
      obtain ⟨rfl, split⟩ := List.cons.inj split
      obtain ⟨later, rfl, inside⟩ := (parts_plain partsOpen starts tests separates steps
        partsClose).skip opens (by simpa using split)
      rw [← List.cons_append] at listed ⊢
      have further := listed.further (by simp [List.getLast?_cons]) partsClose
      refine (repeated.cuts opens further listed.behind inside).behind ?_
      rintro tokens ⟨other, makes, pruned⟩
      rw [parts_tokens begins partsOpen separates partsClose, countingLoop_unlabeled]
      exact ⟨_, countingLoop_makes starts.makes tests.makes steps.makes makes,
        countingLoop_pruned pruned _ _ _ _⟩
  | .branch begins testOpens tests testCloses chosen, _, listed, split => by
      obtain ⟨later, rfl, inside⟩ := (condition_plain begins (by decide) testOpens tests
        testCloses).skip opens (by simpa using split)
      have further := listed.further (by simp [List.getLast?_cons]) testCloses
      refine (chosen.cuts opens further listed.behind inside).behind ?_
      rintro tokens ⟨other, makes, pruned⟩
      rw [condition_tokens begins testOpens testCloses]
      exact ⟨_, branch_makes tests.makes makes, congrArg (Stmt.branch _ _ · none) pruned⟩
  | .alternative begins testOpens tests testCloses chosen belongs divides refused, _, listed,
      split => by
      obtain ⟨later, rfl, inside⟩ := (condition_plain begins (by decide) testOpens tests
        testCloses).skip opens (by simpa using split)
      have further := listed.further (by simp [List.getLast?_cons]) testCloses
      rcases split_at inside with ⟨others, inside, same⟩ | ⟨later, rfl, behind⟩
      · rw [same]
        refine (chosen.cuts opens further listed.behind inside).within ?_
        rintro tokens ⟨other, makes, pruned⟩
        rw [condition_tokens begins testOpens testCloses, List.map_cons, divides]
        exact ⟨_, alternative_makes tests.makes (belongs rfl ▸ makes) refused.makes,
          congrArg (Stmt.branch _ _ · _) pruned⟩
      · obtain ⟨later, rfl, deeper⟩ := (Plain.sign divides .nil).skip opens behind
        rw [← List.append_assoc, ← List.append_assoc] at listed ⊢
        have further := listed.further (by simp [List.getLast?_cons]) divides
        refine (refused.cuts opens further listed.behind deeper).behind ?_
        rintro tokens ⟨other, makes, pruned⟩
        rw [List.map_append, List.map_append, List.append_assoc, List.append_assoc,
          condition_tokens begins testOpens testCloses, List.map_singleton, divides]
        exact ⟨_, alternative_makes tests.makes (belongs rfl ▸ chosen.makes) makes,
          congrArg (Stmt.branch _ _ _ ∘ some) pruned⟩
  | .print begins printed closes, _, _, split =>
      (Plain.sign begins (printed.plain.append (.sign closes .nil))).absurd opens split
  | .giveBack begins given closes, further, _, split => by
      obtain ⟨lexeme, before, rfl⟩ := List.exists_cons_of_ne_nil further
      exact (given.plain.append (.sign closes .nil)).absurd opens (List.cons.inj split).2
  | .loop begins testOpens tests testCloses repeated, _, listed, split => by
      obtain ⟨later, rfl, inside⟩ := (condition_plain begins (by decide) testOpens tests
        testCloses).skip opens (by simpa using split)
      have further := listed.further (by simp [List.getLast?_cons]) testCloses
      refine (repeated.cuts opens further listed.behind inside).behind ?_
      rintro tokens ⟨other, makes, pruned⟩
      rw [condition_tokens begins testOpens testCloses]
      exact ⟨_, loop_makes tests.makes makes, congrArg (Stmt.loop _ _) pruned⟩
  | .block begins declarations closes, _, listed, split => by
      obtain ⟨later, rfl, inside⟩ := (Plain.sign begins .nil).skip opens split
      obtain ⟨others, body, same⟩ := (Plain.sign closes .nil).ahead opens inside
      rw [same]
      refine (declarations.cuts opens ?_ listed.behind body).within ?_
      · exact .inr (Parser.symbol?_eq_some.2 closes)
      rintro tokens ⟨others, makes, pruned⟩
      rw [List.map_singleton, List.map_singleton, begins, closes]
      exact ⟨_, block_makes makes, congrArg (Stmt.block _) pruned⟩
  | .expression evaluated, _, _, split => evaluated.plain.absurd opens split

/-- A return among declarations cuts the list that it stands in. -/
theorem Declarations.cuts {context before tail : List Lexeme} {keyword : Lexeme} {first next : Nat}
    {lexemes : List Lexeme} {stmts : List Stmt} (opens : Spells .return keyword) :
    Declarations .nearest first lexemes stmts next → Closed context → AtDeclaration before →
      lexemes = before ++ keyword :: tail →
        Cuts context before (keyword :: tail) (PrunesDeclarations · (unlabeled.stmts stmts))
  | .none, _, _, split => by simp at split
  | .more declared declarations, closed, listed, split => by
      rcases split_at split with ⟨others, inside, same⟩ | ⟨later, rfl, inside⟩
      · rw [same]
        cases before with
        | nil =>
            -- The declaration itself gives back a value, and the other ones are dead.
            rw [List.nil_append] at inside
            subst inside
            obtain ⟨gives, dangling, stated⟩ := declared.returns opens
            refine ⟨_, _, [], by rw [List.append_nil], ⟨_, _, _, _, stated, gives⟩,
              ⟨_, _, _, declarations⟩, closed, fun tokens stmts makes => ?_⟩
            rw [List.map_nil, List.nil_append, List.append_nil]
            refine ⟨_, more_makes declared.makes makes, Stmt.prunedAll_of_givesBack ?_ _ _⟩
            rwa [Relabeling.stmt_givesBack]
        | cons lexeme before =>
            rw [← List.nil_append (lexeme :: before)]
            refine (declared.cuts opens (List.cons_ne_nil _ _) listed inside).within ?_
            rintro tokens ⟨other, makes, pruned⟩
            rw [List.map_nil, List.nil_append]
            exact ⟨_, more_makes makes declarations.makes, Stmt.prunedAll_cons_congr pruned rfl⟩
      · refine (declarations.cuts opens closed listed.behind inside).behind ?_
        rintro tokens ⟨others, makes, pruned⟩
        exact ⟨_, more_makes declared.makes makes, Stmt.prunedAll_cons_congr rfl pruned⟩

end

end Grammar

end Lox
