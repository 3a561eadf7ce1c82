import Lox.Bindings
import Lox.Proofs.Renaming.Trees
import Lox.Proofs.Scope.Numbering

namespace Lox

/-- The places of the local declarations that code sees. -/
abbrev Seen := Bindings Span

/-- Code stands at the top level, where it sees no local declaration, or inside of a block. -/
inductive View where
  | top
  | inner (seen : Seen)

namespace View

def seen : View → Seen
  | .top => []
  | .inner seen => seen

def isInner : View → Bool
  | .top => false
  | .inner _ => true

/-- A declaration at the top level is not a local one. -/
def extend (name : Name) : View → View
  | .top => .top
  | .inner seen => .inner (seen.put name.item name.span)

/-- Only a declaration changes what the code behind it sees. -/
def after (view : View) : Stmt → View
  | .variable _ name _ | .function _ name _ _ => view.extend name
  | .expression .. | .print .. | .block .. | .branch .. | .loop .. | .giveBack .. => view

/-- The body of a function sees its parameters and what the declaration sees. -/
def within (seen : Seen) (parameters : List Name) : View :=
  parameters.foldl (fun view parameter => view.extend parameter) (.inner seen)

end View

/-- A statement that declares nothing leaves the view as it is. -/
theorem View.after_of_silent (view : View) {stmt : Stmt} (silent : stmt.declares = false) :
    view.after stmt = view := by
  cases stmt with
  | «variable» | function => cases silent
  | expression | print | block | branch | loop | giveBack => rfl

/-- What is declared under a name. -/
inductive Declares where
  | variable
  | parameter
  | function
  deriving DecidableEq

/-- A name is mentioned where it is declared, locally or not, and where a variable occurs, with the
place of the local declaration that is seen there. -/
inductive Mention where
  | declaration (what : Declares) (name : Name) (isLocal : Bool)
  | occurrence (target : Occurrence) (declared : Option Span)
  deriving DecidableEq

namespace Mention

def name : Mention → Name
  | .declaration _ name _ => name
  | .occurrence target _ => ⟨target.name, target.span⟩

/-- The place of the local declaration that a mention is about. -/
def about : Mention → Option Span
  | .declaration _ name isLocal => if isLocal then some name.span else none
  | .occurrence _ declared => declared

/-- An occurrence refers to what is seen under its name. -/
def refer (seen : Seen) (target : Occurrence) : Mention :=
  .occurrence target (seen.value? target.name)

end Mention

open Mention (refer)

mutual

/-- The mentions in an expression. -/
def mentionsExpr (seen : Seen) : Expr → List Mention
  | .literal _ _ => []
  | .variable target => [refer seen target]
  | .assign _ target value => refer seen target :: mentionsExpr seen value
  | .group _ inner => mentionsExpr seen inner
  | .unary _ _ operand => mentionsExpr seen operand
  | .binary _ _ left right => mentionsExpr seen left ++ mentionsExpr seen right
  | .logical _ _ left right => mentionsExpr seen left ++ mentionsExpr seen right
  | .call _ _ callee given => mentionsExpr seen callee ++ mentionsExprs seen given

def mentionsExprs (seen : Seen) : List Expr → List Mention
  | [] => []
  | expr :: rest => mentionsExpr seen expr ++ mentionsExprs seen rest

end

def mentionsOption (seen : Seen) (given : Option Expr) : List Mention :=
  (given.map (mentionsExpr seen)).getD []

def mentionsParameters (parameters : List Name) : List Mention :=
  parameters.map fun name => .declaration .parameter name true

mutual

/-- The mentions in a statement. An initializer does not see the variable that it is for, and a
function sees itself. -/
def mentionsStmt (view : View) : Stmt → List Mention
  | .expression _ value => mentionsExpr view.seen value
  | .print _ value => mentionsExpr view.seen value
  | .variable _ name initializer =>
      .declaration .variable name view.isInner :: mentionsOption view.seen initializer
  | .function _ name parameters body =>
      .declaration .function name view.isInner ::
        (mentionsParameters parameters ++
          mentionsStmts (.within (view.extend name).seen parameters) body)
  | .block _ body => mentionsStmts (.inner view.seen) body
  | .branch _ condition consequent none =>
      mentionsExpr view.seen condition ++ mentionsStmt view consequent
  | .branch _ condition consequent (some alternative) =>
      mentionsExpr view.seen condition ++
        (mentionsStmt view consequent ++ mentionsStmt view alternative)
  | .loop _ condition body => mentionsExpr view.seen condition ++ mentionsStmt view body
  | .giveBack _ _ value => mentionsOption view.seen value

/-- Each statement sees what those before it declare. -/
def mentionsStmts (view : View) : List Stmt → List Mention
  | [] => []
  | stmt :: rest => mentionsStmt view stmt ++ mentionsStmts (view.after stmt) rest

end

/-- The mentions in a program, which starts at the top level. -/
def mentionsOf (program : Program) : List Mention := mentionsStmts .top program

/-- A variable or a parameter that is declared inside of a block or of a function. -/
def DeclaresLocally (program : Program) (name : Name) : Prop :=
  .declaration .variable name true ∈ mentionsOf program ∨
    .declaration .parameter name true ∈ mentionsOf program

instance (program : Program) (name : Name) : Decidable (DeclaresLocally program name) :=
  inferInstanceAs (Decidable (_ ∨ _))

/-- The renaming of a local declaration and of exactly the occurrences that refer to it. -/
def Renaming.of (program : Program) (declared : Name) (name : String) : Renaming where
  declared := declared
  places := ((mentionsOf program).filter fun mention => mention.about = some declared.span).map
    fun mention => mention.name.span
  name := name

/-- The name that a lexeme is. -/
def Lexeme.identifier? (lexeme : Lexeme) : Option Name :=
  match lexeme.token with
  | .identifier name => some ⟨name, lexeme.span⟩
  | .symbol _ | .string _ | .number _ | .invalid => none

namespace Grammar

open Lox.Parser (Spells Level)

/-- The names that are mentioned are those of the lexemes, in some order. -/
def Names (lexemes : List Lexeme) (mentions : List Mention) : Prop :=
  (mentions.map Mention.name).Perm (lexemes.filterMap Lexeme.identifier?)

namespace Names

variable {lexemes others : List Lexeme} {mentions more : List Mention} {symbol : Symbol}
  {lexeme : Lexeme}

theorem nil : Names [] [] := .refl _

/-- The names of two texts are those of both. -/
theorem append (first : Names lexemes mentions) (second : Names others more) :
    Names (lexemes ++ others) (mentions ++ more) := by
  unfold Names at first second ⊢
  rw [List.map_append, List.filterMap_append]
  exact first.append second

/-- A symbol is no name. -/
theorem skip (spelled : Spells symbol lexeme) (names : Names lexemes mentions) :
    Names (lexeme :: lexemes) mentions := by
  obtain ⟨token, text, span⟩ := lexeme
  cases spelled
  exact names

/-- An identifier is the name of its mention. -/
theorem name {name text : String} {span : Span} {mention : Mention}
    (same : mention.name = ⟨name, span⟩) (names : Names lexemes mentions) :
    Names (⟨.identifier name, text, span⟩ :: lexemes) (mention :: mentions) := by
  unfold Names
  rw [List.map_cons, same]
  exact names.cons _

/-- A symbol stands behind some lexemes. -/
theorem close (names : Names lexemes mentions) (spelled : Spells symbol lexeme) :
    Names (lexemes ++ [lexeme]) mentions := by
  have whole := names.append (skip spelled nil)
  rwa [List.append_nil] at whole

/-- A symbol stands between some lexemes and others. -/
theorem between (names : Names lexemes mentions) (spelled : Spells symbol lexeme)
    (behind : Names others more) : Names (lexemes ++ lexeme :: others) (mentions ++ more) :=
  names.append (skip spelled behind)

/-- The order of the mentions does not matter. -/
theorem perm (names : Names lexemes mentions) (reordered : mentions.Perm more) :
    Names lexemes more := (reordered.map _).symm.trans names

end Names

section
variable (seen : Seen)

/-- An operator mentions what its operands mention. -/
theorem node_mentions (place : Span) (left right : Expr) (operator : Parser.Operator) :
    mentionsExpr seen (node place left right operator) =
      mentionsExpr seen left ++ mentionsExpr seen right := by
  cases operator <;> rfl

mutual

/-- The identifiers of an expression are its mentions. -/
theorem Expression.names {first next : Nat} {lexemes : List Lexeme} {expr : Expr} :
    Expression first lexemes expr next → Names lexemes (mentionsExpr seen expr)
  | .assign sign assigned => .name rfl (.skip sign assigned.names)
  | .chain operands => operands.names

theorem Operand.names {level : Level} {first next : Nat} {lexemes : List Lexeme} {expr : Expr} :
    Operand level first lexemes expr next → Names lexemes (mentionsExpr seen expr)
  | .tighter _ operands => operands.names
  | .unary operand => operand.names

theorem Chain.names {level : Level} {first next : Nat} {lexemes : List Lexeme} {expr : Expr} :
    Chain level first lexemes expr next → Names lexemes (mentionsExpr seen expr)
  | .start operand joined => joined.names operand.names

/-- The identifiers behind a left operand are the mentions that its chain adds. -/
theorem ChainAfter.names {level : Level} {first next : Nat} {before lexemes : List Lexeme}
    {left expr : Expr} : ChainAfter level first left lexemes expr next →
      Names before (mentionsExpr seen left) →
        Names (before ++ lexemes) (mentionsExpr seen expr)
  | .done, sofar => by rwa [List.append_nil]
  | .more _ spelled operand joined, sofar => by
      have whole := joined.names (node_mentions seen _ _ _ _ ▸ sofar.between spelled operand.names)
      rwa [List.append_assoc, List.cons_append] at whole

theorem Unary.names {first next : Nat} {lexemes : List Lexeme} {expr : Expr} :
    Unary first lexemes expr next → Names lexemes (mentionsExpr seen expr)
  | .operator _ spelled applied => .skip spelled applied.names
  | .call called => called.names

theorem Call.names {first next : Nat} {lexemes : List Lexeme} {expr : Expr} :
    Call first lexemes expr next → Names lexemes (mentionsExpr seen expr)
  | .start operand given => given.names operand.names

/-- The identifiers behind a callee are the mentions that its calls add. -/
theorem CallAfter.names {first next : Nat} {before lexemes : List Lexeme} {callee expr : Expr} :
    CallAfter first callee lexemes expr next → Names before (mentionsExpr seen callee) →
      Names (before ++ lexemes) (mentionsExpr seen expr)
  | .done, sofar => by rwa [List.append_nil]
  | .more opens arguments closes called, sofar => by
      have whole := called.names ((sofar.between opens arguments.names).close closes)
      simpa only [List.append_assoc, List.cons_append, List.nil_append] using whole

theorem ArgumentList.names {first next : Nat} {lexemes : List Lexeme} {given : List Expr} :
    ArgumentList first lexemes given next → Names lexemes (mentionsExprs seen given)
  | .none => .nil
  | .some arguments _ => arguments.names

theorem Arguments.names {first next : Nat} {lexemes : List Lexeme} {given : List Expr} :
    Arguments first lexemes given next → Names lexemes (mentionsExprs seen given)
  | .last argument => by
      rw [mentionsExprs, mentionsExprs, List.append_nil]
      exact argument.names
  | .more argument separated arguments => argument.names.between separated arguments.names

/-- The identifiers of a primary expression are its mentions. -/
theorem Primary.names {first next : Nat} {lexemes : List Lexeme} {expr : Expr} :
    Primary first lexemes expr next → Names lexemes (mentionsExpr seen expr)
  | .literal denotes => by
      cases denotes <;> exact .nil
  | .variable => .name rfl .nil
  | .group opens grouped closes => .skip opens (grouped.names.close closes)

end

theorem OptionalExpression.names {first next : Nat} {lexemes : List Lexeme}
    {given : Option Expr} :
    OptionalExpression first lexemes given next → Names lexemes (mentionsOption seen given)
  | .none => .nil
  | .some given => given.names seen

theorem Initializer.names {first next : Nat} {lexemes : List Lexeme} {value : Option Expr} :
    Initializer first lexemes value next → Names lexemes (mentionsOption seen value)
  | .none => .nil
  | .some sign value => .skip sign (value.names seen)

end

/-- The identifiers of a parameter list are the declared parameters. -/
theorem Parameters.names {lexemes : List Lexeme} {names : List Name} :
    Parameters lexemes names → Names lexemes (mentionsParameters names)
  | .last => .name rfl .nil
  | .more separated parameters => .name rfl (.skip separated parameters.names)

theorem ParameterList.names {lexemes : List Lexeme} {names : List Name} :
    ParameterList lexemes names → Names lexemes (mentionsParameters names)
  | .none => .nil
  | .some parameters _ => parameters.names

section
variable (view : View)

/-- The identifiers of a variable's declaration are its name and those of its value. -/
theorem VariableDeclaration.names {first next : Nat} {lexemes : List Lexeme} {stmt : Stmt} :
    VariableDeclaration first lexemes stmt next → Names lexemes (mentionsStmt view stmt)
  | .declare opens initializer closes =>
      .skip opens (.name rfl ((initializer.names view.seen).close closes))

theorem ExpressionStatement.names {first next : Nat} {lexemes : List Lexeme} {stmt : Stmt} :
    ExpressionStatement first lexemes stmt next → Names lexemes (mentionsStmt view stmt)
  | .evaluate evaluated closes => (evaluated.names view.seen).close closes

end

/-- The mentions of the first part of a counting loop. -/
def mentionsStart (view : View) (initial : Option Stmt) : List Mention :=
  (initial.map (mentionsStmt (.inner view.seen))).getD []

/-- The identifiers of a loop's start are its mentions. -/
theorem LoopStart.names {first next : Nat} {lexemes : List Lexeme} {initial : Option Stmt}
    (view : View) : LoopStart first lexemes initial next →
      Names lexemes (mentionsStart view initial)
  | .none closes => .skip closes .nil
  | .variable declared => declared.names _
  | .expression evaluated => evaluated.names _

/-- In the tree of a counting loop the step comes behind the body. -/
theorem countingLoop_mentions (view : View) (span : Span) (initial : Option Stmt)
    (test step : Option Expr) {body : Stmt} (silent : body.declares = false) :
    ∃ seen inside, mentionsStmt view (countingLoop span initial test step body) =
      mentionsStart view initial ++
        (mentionsOption seen test ++ (mentionsStmt inside body ++ mentionsOption seen step)) := by
  have loop (view : View) : ∃ inside, mentionsStmt view (countingLoop span none test step body) =
      mentionsOption view.seen test ++
        (mentionsStmt inside body ++ mentionsOption view.seen step) := by
    cases step with
    | none =>
        refine ⟨view, ?_⟩
        cases test <;>
          simp [countingLoop, loopTest, loopBody, loopBlock, mentionsStmt, mentionsOption,
            mentionsExpr]
    | some step =>
        refine ⟨.inner view.seen, ?_⟩
        cases test <;>
          simp [countingLoop, loopTest, loopBody, loopBlock, mentionsStmt, mentionsStmts,
            mentionsOption, mentionsExpr, View.after_of_silent _ silent, View.seen]
  cases initial with
  | none => exact ⟨view.seen, loop view⟩
  | some first =>
      let after := View.after (.inner view.seen) first
      obtain ⟨inside, same⟩ := loop after
      refine ⟨after.seen, inside, ?_⟩
      change mentionsStmts (.inner view.seen) [first, countingLoop span none test step body] = _
      rw [mentionsStmts, mentionsStmts, mentionsStmts, List.append_nil, same]
      rfl

mutual

/-- The identifiers of a declaration are its mentions. -/
theorem Declaration.names {attachment : Attachment} {first next : Nat} {lexemes : List Lexeme}
    {stmt : Stmt} (view : View) :
    Declaration attachment first lexemes stmt next → Names lexemes (mentionsStmt view stmt)
  | .function opens listOpens parameters listCloses bodyOpens declarations bodyCloses =>
      .skip opens (.name rfl (.skip listOpens (parameters.names.between listCloses
        (.skip bodyOpens ((declarations.names _).close bodyCloses)))))
  | .variable declared => declared.names view
  | .statement stated => stated.names view

/-- The identifiers of a statement are its mentions, those of a loop in another order. -/
theorem Statement.names {attachment : Attachment} {first next : Nat} {lexemes : List Lexeme}
    {stmt : Stmt} {dangling : Bool} (view : View) :
    Statement attachment first lexemes stmt dangling next →
      Names lexemes (mentionsStmt view stmt)
  | .forLoop opens partsOpen starts tests separates steps partsClose repeated => by
      obtain ⟨seen, inside, same⟩ := countingLoop_mentions view _ _ _ _ repeated.proper.1
      rw [same]
      have whole := (starts.names view).append ((tests.names seen).between separates
        ((steps.names seen).between partsClose (repeated.names inside)))
      exact .skip opens (.skip partsOpen
        (whole.perm (.append_left _ (.append_left _ List.perm_append_comm))))
  | .branch opens testOpens tests testCloses chosen =>
      .skip opens (.skip testOpens ((tests.names _).between testCloses (chosen.names view)))
  | .alternative opens testOpens tests testCloses chosen _ divides refused =>
      .skip opens (.skip testOpens ((tests.names _).between testCloses
        ((chosen.names view).between divides (refused.names view))))
  | .print opens printed closes => .skip opens ((printed.names _).close closes)
  | .giveBack opens given closes => .skip opens ((given.names _).close closes)
  | .loop opens testOpens tests testCloses repeated =>
      .skip opens (.skip testOpens ((tests.names _).between testCloses (repeated.names view)))
  | .block opens declarations closes => .skip opens ((declarations.names _).close closes)
  | .expression evaluated => evaluated.names view

/-- The identifiers of several declarations are their mentions. -/
theorem Declarations.names {attachment : Attachment} {first next : Nat} {lexemes : List Lexeme}
    {stmts : List Stmt} (view : View) :
    Declarations attachment first lexemes stmts next → Names lexemes (mentionsStmts view stmts)
  | .none => .nil
  | .more declared declarations => (declared.names view).append (declarations.names _)

end

/-- The names that a program mentions are those of its lexemes. -/
theorem Forms.names {attachment : Attachment} {lexemes : List Lexeme} {program : Program}
    (forms : Forms attachment lexemes program) : Names lexemes (mentionsOf program) := by
  obtain ⟨occurrences, declarations⟩ := forms
  exact declarations.names .top

end Grammar

end Lox
