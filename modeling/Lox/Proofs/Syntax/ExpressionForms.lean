import Lox.Proofs.Syntax.Grammar
import Lox.Proofs.Syntax.Progress

namespace Lox.Parser

open Lox.Computation Grammar

/-- The operators of a level are those that the parser looks for there. -/
theorem joins_iff {level : Level} {symbol : Symbol} {operator : Operator} :
    Joins level symbol operator ↔ level.operator? symbol = some operator := by
  constructor
  · rintro (_ | _) <;> rfl
  · intro joins
    unfold Level.operator? at joins
    split at joins <;> cases joins <;> constructor

/-- The tighter level is the one that the parser goes on with. -/
theorem below_iff {level tighter : Level} :
    Below level tighter ↔ level.tighter? = some tighter := by
  constructor
  · rintro (_ | _) <;> rfl
  · intro below
    cases level <;> cases below <;> constructor

/-- The prefix operators are those that the parser looks for. -/
theorem applies_iff {symbol : Symbol} {op : UnaryOp} :
    Applies symbol op ↔ unaryOp? symbol = some op := by
  constructor
  · rintro (_ | _) <;> rfl
  · intro applies
    unfold unaryOp? at applies
    split at applies <;> cases applies <;> constructor

/-- The literals are those that the parser takes. -/
theorem denotes_iff {token : Token} {value : Literal} :
    Denotes token value ↔ literal? token = some value := by
  constructor
  · rintro (_ | _) <;> rfl
  · intro denotes
    unfold literal? at denotes
    split at denotes <;> cases denotes <;> constructor

/-- The end of the last of some lexemes, or an earlier end if there are none. -/
def endOf (stop : Nat) (lexemes : List Lexeme) : Nat :=
  lexemes.foldl (fun _ lexeme => lexeme.span.stop) stop

@[simp] theorem endOf_nil (stop : Nat) : endOf stop [] = stop := rfl

@[simp] theorem endOf_cons (stop : Nat) (lexeme : Lexeme) (lexemes : List Lexeme) :
    endOf stop (lexeme :: lexemes) = endOf lexeme.span.stop lexemes := rfl

/-- The end behind two runs of lexemes is that of the second one behind the first. -/
@[simp] theorem endOf_append (stop : Nat) (lexemes others : List Lexeme) :
    endOf stop (lexemes ++ others) = endOf (endOf stop lexemes) others :=
  List.foldl_append

/-- Lexemes extend from the start of the first one to the end of the last. -/
theorem extent_cons (lexeme : Lexeme) (lexemes : List Lexeme) :
    extent (lexeme :: lexemes) = ⟨lexeme.span.start, endOf lexeme.span.stop lexemes⟩ := by
  have last (stop : Nat) : (lexemes.getLast?.map fun lexeme => lexeme.span.stop).getD stop =
      endOf stop lexemes := by
    induction lexemes generalizing stop with
    | nil => rfl
    | cons first rest ih =>
        rw [endOf_cons, ← ih, List.getLast?_cons]
        cases rest.getLast? <;> rfl
  rw [← last, extent, List.getLast?_cons]
  cases lexemes.getLast? <;> rfl

/-- One state is reached from another by taking exactly some lexemes. -/
structure Takes (lexemes : List Lexeme) (first last : State) : Prop where
  rest : first.rest = lexemes ++ last.rest
  stop : last.lastStop = endOf first.lastStop lexemes

namespace Takes

theorem nil (state : State) : Takes [] state state := ⟨rfl, rfl⟩

theorem behind {state : State} {lexeme : Lexeme} {rest : List Lexeme}
    (next : state.rest = lexeme :: rest) : Takes [lexeme] state (state.behind lexeme rest) :=
  ⟨next, rfl⟩

theorem trans {lexemes others : List Lexeme} {first middle last : State}
    (start : Takes lexemes first middle) (rest : Takes others middle last) :
    Takes (lexemes ++ others) first last :=
  ⟨by rw [start.rest, rest.rest, List.append_assoc], by rw [rest.stop, start.stop, endOf_append]⟩

theorem cons {lexeme : Lexeme} {rest lexemes : List Lexeme} {first last : State}
    (next : first.rest = lexeme :: rest) (taken : Takes lexemes (first.behind lexeme rest) last) :
    Takes (lexeme :: lexemes) first last :=
  (behind next).trans taken

/-- A span from the next lexeme to the last one taken is the extent of what is taken. -/
theorem extent_eq (eof : Nat) {lexemes : List Lexeme} {first last : State}
    (taken : Takes lexemes first last) (some : lexemes ≠ []) :
    (⟨(first.here eof).start, last.lastStop⟩ : Span) = extent lexemes := by
  obtain ⟨lexeme, rest, rfl⟩ := List.exists_cons_of_ne_nil some
  rw [extent_cons, taken.stop, here_cons taken.rest]
  rfl

/-- A span from a keyword that has been taken to the last lexeme taken. -/
theorem extent_cons_eq {keyword : Lexeme} {lexemes : List Lexeme} {first last : State}
    (taken : Takes lexemes first last) (keeps : first.lastStop = keyword.span.stop) :
    (⟨keyword.span.start, last.lastStop⟩ : Span) = extent (keyword :: lexemes) := by
  rw [extent_cons, taken.stop, keeps]

end Takes

/-- A production reads a part of the grammar when, without a new error, it takes a sentence of
that part and gives the tree of the sentence. -/
def Reads {α : Type} (part : Nat → List Lexeme → α → Nat → Prop) (production : Production α) :
    Prop :=
  ∀ ⦃state last : State⦄ ⦃value : α⦄, Gives production state value last →
    last.errors.size ≤ state.errors.size →
      ∃ lexemes, Takes lexemes state last ∧ part state.nextId lexemes value last.nextId

theorem Reads.outOfFuel {α : Type} {part : Nat → List Lexeme → α → Nat → Prop} :
    Reads part (throw .outOfFuel : Production α) :=
  fun _ _ _ ended => absurd ended not_gives_throw

/-- A parser that advances takes no error back. -/
theorem Advances.size_le {count : Nat} {first last : State} (advances : Advances count first last) :
    first.errors.size ≤ last.errors.size := by
  obtain ⟨found, reported, -⟩ := advances.reported
  have sizes := congrArg List.length reported
  simp only [Array.length_toList, List.length_append] at sizes
  omega

/-- The productions of expressions read their parts of the grammar. -/
structure ExpressionsRead (eof fuel : Nat) : Prop where
  expression : Reads Expression (expression eof fuel)
  operand (level : Level) : Reads (Operand level) (operand eof fuel level)
  chain (level : Level) : Reads (Chain level) (chain eof fuel level)
  chainAfter (level : Level) (left : Expr) :
    Reads (fun first => ChainAfter level first left) (chainAfter eof fuel level left)
  unary : Reads Unary (unary eof fuel)
  call : Reads Call (call eof fuel)
  callAfter (callee : Expr) :
    Reads (fun first => CallAfter first callee) (callAfter eof fuel callee)
  arguments (length : Nat) :
    Reads (fun first lexemes given next =>
      Arguments first lexemes given next ∧ length + given.length ≤ listLimit)
      (arguments eof fuel length)
  primary : Reads Primary (primary eof fuel)

section
variable {eof fuel : Nat} (parts : ExpressionsRead eof fuel)
include parts

/-- An expression that is read without a new error is a sentence. -/
theorem expression_reads : Reads Expression (expression eof (fuel + 1)) := by
  intro state last value ended clean
  rw [expression, gives_bind] at ended
  obtain ⟨target, middle, chained, ended⟩ := ended
  have progress := expressionsProgress eof fuel
  have grows := (progress.chain .or state).advances chained |>.size_le
  rw [gives_step isNext_apply] at ended
  split at ended
  next sign =>
    obtain ⟨equal, rest, split, spelled⟩ := State.next?_eq_some.1 (of_decide_eq_true sign)
    rw [gives_step take_apply, here_cons split, State.advance_cons split, gives_bind] at ended
    obtain ⟨assigned, behind, valued, ended⟩ := ended
    have grows' : middle.errors.size ≤ behind.errors.size :=
      (progress.expression _).advances valued |>.size_le
    split at ended
    next target =>
      obtain ⟨rfl, rfl⟩ := gives_pure.1 ended
      obtain ⟨lexemes, taken, operands⟩ := parts.chain .or chained (by omega)
      obtain ⟨others, followed, form⟩ := parts.expression valued (Nat.le_trans clean grows)
      obtain ⟨text, rfl, number, next⟩ := (operands.of_variable rfl).of_variable
      refine ⟨_, taken.trans (followed.cons split), ?_⟩
      rw [State.behind_nextId, next, number] at form
      rw [number]
      exact .assign spelled form
    next =>
      rw [gives_step report_apply] at ended
      obtain ⟨-, rfl⟩ := gives_pure.1 ended
      simp only [Array.size_push] at clean
      omega
  next =>
    obtain ⟨rfl, rfl⟩ := gives_pure.1 ended
    obtain ⟨lexemes, taken, operands⟩ := parts.chain .or chained clean
    exact ⟨lexemes, taken, .chain operands⟩

/-- An operand that is read without a new error is a sentence of its level. -/
theorem operand_reads (level : Level) : Reads (Operand level) (operand eof (fuel + 1) level) := by
  intro state last value ended clean
  rw [operand] at ended
  split at ended
  next tighter below =>
    obtain ⟨lexemes, taken, operands⟩ := parts.chain tighter ended clean
    exact ⟨lexemes, taken, .tighter (below_iff.2 below) operands⟩
  next tightest =>
    obtain ⟨lexemes, taken, form⟩ := parts.unary ended clean
    cases level <;> cases tightest
    exact ⟨lexemes, taken, .unary form⟩

/-- A chain that is read without a new error is a sentence of its level. -/
theorem chain_reads (level : Level) : Reads (Chain level) (chain eof (fuel + 1) level) := by
  intro state last value ended clean
  rw [chain, gives_bind] at ended
  obtain ⟨left, middle, started, joined⟩ := ended
  have progress := expressionsProgress eof fuel
  have grows := (progress.operand level state).advances started |>.size_le
  have grows' := (progress.chainAfter level left middle).advances joined |>.size_le
  obtain ⟨lexemes, taken, form⟩ := parts.operand level started (by omega)
  obtain ⟨others, followed, rest⟩ := parts.chainAfter level left joined (by omega)
  exact ⟨_, taken.trans followed, .start form rest⟩

/-- What is read behind a left operand continues its chain. -/
theorem chainAfter_reads (level : Level) (left : Expr) :
    Reads (fun first => ChainAfter level first left) (chainAfter eof (fuel + 1) level left) := by
  intro state last value ended clean
  rw [chainAfter, gives_step peek?_apply] at ended
  split at ended
  next operator stands =>
    obtain ⟨symbol, next, joins⟩ := Option.bind_eq_some_iff.1 stands
    obtain ⟨sign, rest, split, spelled⟩ := State.next?_eq_some.1 next
    rw [gives_step take_apply, here_cons split, State.advance_cons split, gives_bind] at ended
    obtain ⟨right, middle, followed, ended⟩ := ended
    have progress := expressionsProgress eof fuel
    have grows : state.errors.size ≤ middle.errors.size :=
      (progress.operand level _).advances followed |>.size_le
    have grows' := (progress.chainAfter level _ middle).advances ended |>.size_le
    obtain ⟨lexemes, taken, form⟩ := parts.operand level followed (Nat.le_trans grows' clean)
    obtain ⟨others, joined, rest⟩ := parts.chainAfter level _ ended (by omega)
    exact ⟨_, (taken.trans joined).cons split, .more (joins_iff.2 joins) spelled form rest⟩
  next =>
    obtain ⟨rfl, rfl⟩ := gives_pure.1 ended
    exact ⟨[], .nil state, .done⟩

/-- A prefixed expression that is read without a new error is a sentence. -/
theorem unary_reads : Reads Unary (unary eof (fuel + 1)) := by
  intro state last value ended clean
  rw [unary, gives_step peek?_apply] at ended
  split at ended
  next op stands =>
    obtain ⟨symbol, next, applies⟩ := Option.bind_eq_some_iff.1 stands
    obtain ⟨sign, rest, split, spelled⟩ := State.next?_eq_some.1 next
    rw [gives_step take_apply, here_cons split, State.advance_cons split, gives_bind] at ended
    obtain ⟨inner, middle, applied, ended⟩ := ended
    obtain ⟨rfl, rfl⟩ := gives_pure.1 ended
    obtain ⟨lexemes, taken, form⟩ := parts.unary applied clean
    exact ⟨_, taken.cons split, .operator (applies_iff.2 applies) spelled form⟩
  next =>
    obtain ⟨lexemes, taken, form⟩ := parts.call ended clean
    exact ⟨lexemes, taken, .call form⟩

theorem call_reads : Reads Call (call eof (fuel + 1)) := by
  intro state last value ended clean
  rw [call, gives_bind] at ended
  obtain ⟨callee, middle, started, given⟩ := ended
  have progress := expressionsProgress eof fuel
  have grows := (progress.primary state).advances started |>.size_le
  have grows' := (progress.callAfter callee middle).advances given |>.size_le
  obtain ⟨lexemes, taken, form⟩ := parts.primary started (by omega)
  obtain ⟨others, followed, rest⟩ := parts.callAfter callee given (by omega)
  exact ⟨_, taken.trans followed, .start form rest⟩

/-- What is read behind a callee continues its calls. -/
theorem callAfter_reads (callee : Expr) :
    Reads (fun first => CallAfter first callee) (callAfter eof (fuel + 1) callee) := by
  intro state last value ended clean
  rw [callAfter, gives_bind] at ended
  obtain ⟨present, middle, accepted, ended⟩ := ended
  rcases accept_eq_ok.1 accepted with ⟨rfl, opening, rest, split, opens, rfl⟩ | ⟨rfl, -, rfl⟩
  · have progress := expressionsProgress eof fuel
    -- The list may be empty, and what follows is the same in both cases.
    have closing {given : List Expr} (middle : State)
        (grows : state.errors.size ≤ middle.errors.size)
        (listed : middle.errors.size ≤ state.errors.size →
          ∃ lexemes, Takes lexemes (state.behind opening rest) middle ∧
            ArgumentList state.nextId lexemes given middle.nextId)
        (ended : Gives (do
          let paren ← expect eof .rightParen
          callAfter eof fuel (.call (callee.span.to paren) paren callee given)) middle value last) :
        ∃ lexemes, Takes lexemes state last ∧
          CallAfter state.nextId callee lexemes value last.nextId := by
      rw [gives_bind] at ended
      obtain ⟨paren, behind, closed, called⟩ := ended
      obtain ⟨closing, others, splits, closes, rfl, rfl⟩ := expect_eq_ok.1 closed
      have grows' : middle.errors.size ≤ last.errors.size :=
        (progress.callAfter _ _).advances called |>.size_le
      obtain ⟨lexemes, taken, list⟩ := listed (by omega)
      obtain ⟨more, followed, form⟩ := parts.callAfter _ called (Nat.le_trans clean grows)
      exact ⟨_, (taken.trans (followed.cons splits)).cons split, .more opens list closes form⟩
    simp only [↓reduceIte, gives_step isNext_apply] at ended
    split at ended
    next =>
      rw [gives_step (Computation.pure_apply _ _)] at ended
      exact closing (state.behind opening rest) (Nat.le_refl _) (fun _ => ⟨[], .nil _, .none⟩)
        ended
    next =>
      rw [gives_bind] at ended
      obtain ⟨given, middle, listed, ended⟩ := ended
      have grows : state.errors.size ≤ middle.errors.size :=
        (progress.arguments 0 _).advances listed |>.size_le
      refine closing middle grows (fun clean => ?_) ended
      obtain ⟨lexemes, taken, form, short⟩ := parts.arguments 0 listed clean
      rw [Nat.zero_add] at short
      exact ⟨lexemes, taken, .some form short⟩
  · obtain ⟨rfl, rfl⟩ := gives_pure.1 ended
    exact ⟨[], .nil _, .done⟩

/-- Arguments that are read without a new error are within the limit. -/
theorem arguments_reads (length : Nat) :
    Reads (fun first lexemes given next =>
      Arguments first lexemes given next ∧ length + given.length ≤ listLimit)
      (arguments eof (fuel + 1) length) := by
  intro state last value ended clean
  rw [arguments, gives_bind] at ended
  obtain ⟨_, middle, checked, ended⟩ := ended
  have progress := expressionsProgress eof fuel
  rw [gives_bind] at ended
  obtain ⟨first, behind, given, ended⟩ := ended
  have grows := (progress.expression middle).advances given |>.size_le
  rw [gives_bind] at ended
  obtain ⟨more, next, separated, ended⟩ := ended
  rcases accept_eq_ok.1 separated with ⟨rfl, comma, rest, split, spelled, rfl⟩ | ⟨rfl, -, rfl⟩
  · simp only [↓reduceIte, gives_bind] at ended
    obtain ⟨others, final, listed, ended⟩ := ended
    obtain ⟨rfl, rfl⟩ := gives_pure.1 ended
    have grows' : behind.errors.size ≤ final.errors.size :=
      (progress.arguments _ _).advances listed |>.size_le
    obtain ⟨short, rfl⟩ := checkLength_eq_ok checked (by omega)
    obtain ⟨lexemes, taken, form⟩ := parts.expression given (by omega)
    obtain ⟨rests, followed, forms, fits⟩ := parts.arguments _ listed (Nat.le_trans clean grows)
    refine ⟨_, taken.trans (followed.cons split), .more form spelled forms, ?_⟩
    rw [List.length_cons]
    omega
  · obtain ⟨rfl, rfl⟩ := gives_pure.1 ended
    obtain ⟨short, rfl⟩ := checkLength_eq_ok checked (by omega)
    obtain ⟨lexemes, taken, form⟩ := parts.expression given clean
    exact ⟨_, taken, .last form, short⟩

/-- A primary expression that is read without a new error is a sentence. -/
theorem primary_reads : Reads Primary (primary eof (fuel + 1)) := by
  intro state last value ended clean
  rw [primary, gives_step (get_apply _)] at ended
  split at ended
  next => cases ended
  next token text span rest split =>
    split at ended
    next name =>
      cases (variable_cons split).symm.trans ended
      exact ⟨[_], ⟨split, rfl⟩, .variable⟩
    next =>
      rw [gives_step take_apply, here_cons split, State.advance_cons split, gives_bind] at ended
      obtain ⟨inner, middle, grouped, ended⟩ := ended
      rw [gives_bind] at ended
      obtain ⟨place, behind, closed, ended⟩ := ended
      obtain ⟨closing, others, splits, closes, rfl, rfl⟩ := expect_eq_ok.1 closed
      obtain ⟨rfl, rfl⟩ := gives_pure.1 ended
      obtain ⟨lexemes, taken, form⟩ := parts.expression grouped clean
      exact ⟨_, (taken.trans (.behind splits)).cons split, .group rfl form closes⟩
    next =>
      split at ended
      next value denotes =>
        rw [gives_step take_apply, here_cons split, State.advance_cons split] at ended
        obtain ⟨rfl, rfl⟩ := gives_pure.1 ended
        exact ⟨_, .behind split, .literal (denotes_iff.2 denotes)⟩
      next => cases ended

end

/-- Expressions are read with any amount of fuel. -/
theorem expressionsRead (eof fuel : Nat) : ExpressionsRead eof fuel := by
  induction fuel with
  | zero =>
      exact ⟨.outOfFuel, fun _ => .outOfFuel, fun _ => .outOfFuel, fun _ _ => .outOfFuel,
        .outOfFuel, .outOfFuel, fun _ => .outOfFuel, fun _ => .outOfFuel, .outOfFuel⟩
  | succ fuel parts =>
      exact ⟨expression_reads parts, operand_reads parts, chain_reads parts,
        chainAfter_reads parts, unary_reads parts, call_reads parts, callAfter_reads parts,
        arguments_reads parts, primary_reads parts⟩

end Lox.Parser
