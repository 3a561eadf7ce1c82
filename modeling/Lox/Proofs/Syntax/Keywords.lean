import Lox.Proofs.Syntax.Grammar

namespace Lox

theorem Parser.Spells.token {symbol : Symbol} {lexeme : Lexeme} (spelled : Spells symbol lexeme) :
    lexeme.token = .symbol symbol := spelled

namespace Grammar

open Lox.Parser (Level Operator Spells)

/-- The symbols but the keywords of counting loops and of statements that give back a value. -/
def isPlain : Symbol → Bool
  | .for | .return => false
  | _ => true

/-- Lexemes without these keywords. -/
def Plain (lexemes : List Lexeme) : Prop :=
  ∀ lexeme ∈ lexemes, ∀ symbol, Spells symbol lexeme → isPlain symbol = true

namespace Plain

variable {lexeme : Lexeme} {lexemes others : List Lexeme} {symbol : Symbol}

theorem nil : Plain [] := nofun

/-- Two runs of plain lexemes are plain. -/
theorem append (start : Plain lexemes) (rest : Plain others) : Plain (lexemes ++ others) :=
  List.forall_mem_append.2 ⟨start, rest⟩

theorem name {name text : String} {span : Span} (rest : Plain others) :
    Plain (⟨.identifier name, text, span⟩ :: others) :=
  List.forall_mem_cons.2 ⟨fun _ => nofun, rest⟩

/-- A plain symbol in front keeps lexemes plain. -/
theorem sign (spelled : Spells symbol lexeme) (rest : Plain others)
    (plain : isPlain symbol = true := by decide) : Plain (lexeme :: others) := by
  refine List.forall_mem_cons.2 ⟨fun other also => ?_, rest⟩
  rwa [← Token.symbol.inj (spelled.symm.trans also)]

end Plain

mutual

/-- No `for` and no `return` stands in an expression. -/
theorem Expression.plain {first next : Nat} {lexemes : List Lexeme} {expr : Expr} :
    Expression first lexemes expr next → Plain lexemes
  | .assign sign assigned => .name (.sign sign assigned.plain)
  | .chain operands => operands.plain

theorem Operand.plain {level : Level} {first next : Nat} {lexemes : List Lexeme} {expr : Expr} :
    Operand level first lexemes expr next → Plain lexemes
  | .tighter _ operands => operands.plain
  | .unary operand => operand.plain

theorem Chain.plain {level : Level} {first next : Nat} {lexemes : List Lexeme} {expr : Expr} :
    Chain level first lexemes expr next → Plain lexemes
  | .start operand joined => operand.plain.append joined.plain

/-- No `for` and no `return` stands behind a left operand. -/
theorem ChainAfter.plain {level : Level} {first next : Nat} {lexemes : List Lexeme}
    {left expr : Expr} : ChainAfter level first left lexemes expr next → Plain lexemes
  | .done => .nil
  | .more joins spelled operand joined =>
      .sign spelled (operand.plain.append joined.plain) (by cases joins <;> decide)

theorem Unary.plain {first next : Nat} {lexemes : List Lexeme} {expr : Expr} :
    Unary first lexemes expr next → Plain lexemes
  | .operator applies spelled applied =>
      .sign spelled applied.plain (by cases applies <;> decide)
  | .call called => called.plain

theorem Call.plain {first next : Nat} {lexemes : List Lexeme} {expr : Expr} :
    Call first lexemes expr next → Plain lexemes
  | .start operand given => operand.plain.append given.plain

theorem CallAfter.plain {first next : Nat} {lexemes : List Lexeme} {callee expr : Expr} :
    CallAfter first callee lexemes expr next → Plain lexemes
  | .done => .nil
  | .more opens arguments closes called =>
      .sign opens (arguments.plain.append (.sign closes called.plain))

theorem ArgumentList.plain {first next : Nat} {lexemes : List Lexeme} {given : List Expr} :
    ArgumentList first lexemes given next → Plain lexemes
  | .none => .nil
  | .some arguments _ => arguments.plain

theorem Arguments.plain {first next : Nat} {lexemes : List Lexeme} {given : List Expr} :
    Arguments first lexemes given next → Plain lexemes
  | .last argument => argument.plain
  | .more argument separated arguments =>
      argument.plain.append (.sign separated arguments.plain)

/-- No `for` and no `return` stands in a primary expression. -/
theorem Primary.plain {first next : Nat} {lexemes : List Lexeme} {expr : Expr} :
    Primary first lexemes expr next → Plain lexemes
  | .literal denotes => List.forall_mem_singleton.2 fun _ spelled => by
      cases denotes <;> cases spelled <;> rfl
  | .variable => .name .nil
  | .group opens grouped closes => .sign opens (grouped.plain.append (.sign closes .nil))

end

theorem OptionalExpression.plain {first next : Nat} {lexemes : List Lexeme}
    {given : Option Expr} : OptionalExpression first lexemes given next → Plain lexemes
  | .none => .nil
  | .some given => given.plain

/-- No `for` and no `return` stands among parameters. -/
theorem Parameters.plain {lexemes : List Lexeme} {names : List Name} :
    Parameters lexemes names → Plain lexemes
  | .last => .name .nil
  | .more separated parameters => .name (.sign separated parameters.plain)

theorem ParameterList.plain {lexemes : List Lexeme} {names : List Name} :
    ParameterList lexemes names → Plain lexemes
  | .none => .nil
  | .some parameters _ => parameters.plain

theorem Initializer.plain {first next : Nat} {lexemes : List Lexeme} {value : Option Expr} :
    Initializer first lexemes value next → Plain lexemes
  | .none => .nil
  | .some sign value => .sign sign value.plain

/-- No `for` and no `return` stands in a variable's declaration. -/
theorem VariableDeclaration.plain {first next : Nat} {lexemes : List Lexeme} {stmt : Stmt} :
    VariableDeclaration first lexemes stmt next → Plain lexemes
  | .declare opens initializer closes =>
      .sign opens (.name (initializer.plain.append (.sign closes .nil)))

theorem ExpressionStatement.plain {first next : Nat} {lexemes : List Lexeme} {stmt : Stmt} :
    ExpressionStatement first lexemes stmt next → Plain lexemes
  | .evaluate evaluated closes => evaluated.plain.append (.sign closes .nil)

theorem LoopStart.plain {first next : Nat} {lexemes : List Lexeme} {initial : Option Stmt} :
    LoopStart first lexemes initial next → Plain lexemes
  | .none closes => .sign closes .nil
  | .variable declared => declared.plain
  | .expression evaluated => evaluated.plain

section
variable {part rest before tail : List Lexeme} {keyword : Lexeme} {symbol : Symbol}

/-- A lexeme of two parts is in one of them. -/
theorem split_at (split : part ++ rest = before ++ keyword :: tail) :
    (∃ others, part = before ++ keyword :: others ∧ keyword :: tail = keyword :: others ++ rest) ∨
      ∃ later, before = part ++ later ∧ rest = later ++ keyword :: tail := by
  rcases List.append_eq_append_iff.1 split with ⟨later, rfl, same⟩ | ⟨others, rfl, same⟩
  · exact .inr ⟨later, rfl, same⟩
  · cases others with
    | nil => exact .inr ⟨[], by simp, same.symm⟩
    | cons lexeme others =>
        obtain ⟨rfl, rfl⟩ := List.cons.inj same
        exact .inl ⟨others, rfl, rfl⟩

/-- Plain lexemes have no `for` and no `return` among them. -/
theorem Plain.absurd {lexemes : List Lexeme} {goal : Prop} (plain : Plain lexemes)
    (opens : Spells symbol keyword) (split : lexemes = before ++ keyword :: tail)
    (sought : isPlain symbol = false := by decide) : goal := by
  cases sought.symm.trans (plain keyword (by simp [split]) symbol opens)

/-- A keyword that is looked for is in front of plain lexemes. -/
theorem Plain.ahead (plain : Plain rest) (opens : Spells symbol keyword)
    (split : part ++ rest = before ++ keyword :: tail)
    (sought : isPlain symbol = false := by decide) :
    ∃ others, part = before ++ keyword :: others ∧ keyword :: tail = keyword :: others ++ rest := by
  rcases split_at split with inside | ⟨later, -, behind⟩
  · exact inside
  · exact plain.absurd opens behind sought

/-- A keyword that is looked for is behind plain lexemes. -/
theorem Plain.skip (plain : Plain part) (opens : Spells symbol keyword)
    (split : part ++ rest = before ++ keyword :: tail)
    (sought : isPlain symbol = false := by decide) :
    ∃ later, before = part ++ later ∧ rest = later ++ keyword :: tail := by
  rcases split_at split with ⟨others, inside, -⟩ | behind
  · exact plain.absurd opens inside sought
  · exact behind

end

section
variable {first second third fourth : Nat} {keyword opening separator closing leftBrace : Lexeme}
  {lexemes start middle last : List Lexeme} {symbol : Symbol} {test : Expr}

/-- The head of a branch or of a `while` loop is plain. -/
theorem condition_plain (opens : Spells symbol keyword) (plain : isPlain symbol = true)
    (testOpens : Spells .leftParen opening) (tests : Expression first lexemes test second)
    (testCloses : Spells .rightParen closing) :
    Plain (keyword :: opening :: (lexemes ++ [closing])) :=
  .sign opens (.sign testOpens (tests.plain.append (.sign testCloses .nil))) plain

theorem condition_tokens (opens : Spells symbol keyword) (testOpens : Spells .leftParen opening)
    (testCloses : Spells .rightParen closing) (tokens : List Token) :
    (keyword :: opening :: (lexemes ++ [closing])).map Lexeme.token ++ tokens =
      .symbol symbol :: .symbol .leftParen ::
        (lexemes.map Lexeme.token ++ .symbol .rightParen :: tokens) := by
  simp [opens.token, testOpens.token, testCloses.token]

/-- The head of a function is plain. -/
theorem header_plain {name text : String} {span : Span} {names : List Name}
    (opens : Spells .fun keyword) (listOpens : Spells .leftParen opening)
    (parameters : ParameterList lexemes names) (listCloses : Spells .rightParen closing)
    (bodyOpens : Spells .leftBrace leftBrace) :
    Plain (keyword :: ⟨.identifier name, text, span⟩ :: opening ::
      (lexemes ++ [closing, leftBrace])) :=
  .sign opens (.name (.sign listOpens
    (parameters.plain.append (.sign listCloses (.sign bodyOpens .nil)))))

theorem header_tokens {name text : String} {span : Span} (opens : Spells .fun keyword)
    (listOpens : Spells .leftParen opening) (listCloses : Spells .rightParen closing)
    (bodyOpens : Spells .leftBrace leftBrace) (tokens : List Token) :
    (keyword :: ⟨.identifier name, text, span⟩ :: opening ::
        (lexemes ++ [closing, leftBrace])).map Lexeme.token ++ tokens =
      .symbol .fun :: .identifier name :: .symbol .leftParen ::
        (lexemes.map Lexeme.token ++ .symbol .rightParen :: .symbol .leftBrace :: tokens) := by
  simp [opens.token, listOpens.token, listCloses.token, bodyOpens.token]

/-- The head of a `for` loop is plain behind its keyword. -/
theorem parts_plain {initial : Option Stmt} {test step : Option Expr}
    (partsOpen : Spells .leftParen opening) (starts : LoopStart first start initial second)
    (tests : OptionalExpression second middle test third)
    (separates : Spells .semicolon separator) (steps : OptionalExpression third last step fourth)
    (partsClose : Spells .rightParen closing) :
    Plain (opening :: (start ++ (middle ++ separator :: (last ++ [closing])))) :=
  .sign partsOpen (starts.plain.append (tests.plain.append (.sign separates
    (steps.plain.append (.sign partsClose .nil)))))

theorem parts_tokens (opens : Spells .for keyword) (partsOpen : Spells .leftParen opening)
    (separates : Spells .semicolon separator) (partsClose : Spells .rightParen closing)
    (tokens : List Token) :
    (keyword :: opening ::
        (start ++ (middle ++ separator :: (last ++ [closing])))).map Lexeme.token ++ tokens =
      .symbol .for :: .symbol .leftParen ::
        (start.map Lexeme.token ++ (middle.map Lexeme.token ++ .symbol .semicolon ::
          (last.map Lexeme.token ++ .symbol .rightParen :: tokens))) := by
  simp [opens.token, partsOpen.token, separates.token, partsClose.token]

end

end Grammar

end Lox
