import Lox.Proofs.Label.Relabeling

namespace Lox

/-- The spelling of a token that has only one. -/
def Token.spelling? : Token → Option String
  | .symbol spelled => some spelled.text
  | .identifier name => some name
  | .string _ | .number _ | .invalid => none

/-- A span lies inside another one. -/
structure Span.Inside (inner outer : Span) : Prop where
  start : outer.start ≤ inner.start
  stop : inner.stop ≤ outer.stop

theorem Span.Inside.refl (span : Span) : span.Inside span := ⟨Nat.le_refl _, Nat.le_refl _⟩

section
variable (lexemes : List Lexeme)

/-- A span is that of a lexeme with a spelling. -/
def Stands (text : String) (span : Span) : Prop :=
  ∃ lexeme ∈ lexemes, lexeme.span = span ∧ lexeme.token.spelling? = some text

/-- A span is not empty and goes from the start of a lexeme to the end of one. -/
structure Bounded (span : Span) : Prop where
  start : ∃ lexeme ∈ lexemes, lexeme.span.start = span.start
  stop : ∃ lexeme ∈ lexemes, lexeme.span.stop = span.stop
  proper : span.start < span.stop

/-- The lexemes of a text are not empty and follow one another. -/
structure InOrder : Prop where
  proper : ∀ lexeme ∈ lexemes, lexeme.span.start < lexeme.span.stop
  ordered : lexemes.Pairwise fun first second => first.span.stop ≤ second.span.start

mutual

/-- The parts of an expression follow one another, from its start to its end. -/
def Expr.LaidOut : Expr → Prop
  | .literal span _ => Bounded lexemes span
  | .variable target => Stands lexemes target.name target.span
  | .assign span target value =>
      span = target.span.to value.span ∧ Stands lexemes target.name target.span ∧
        target.span.stop ≤ value.span.start ∧ value.LaidOut
  | .group span inner =>
      ∃ opening closing, Stands lexemes "(" opening ∧ Stands lexemes ")" closing ∧
        span = opening.to closing ∧ opening.stop ≤ inner.span.start ∧
        inner.span.stop ≤ closing.start ∧ inner.LaidOut
  | .unary span op operand =>
      span = op.span.to operand.span ∧ Stands lexemes op.item.text op.span ∧
        op.span.stop ≤ operand.span.start ∧ operand.LaidOut
  | .binary span op left right =>
      span = left.span.to right.span ∧ Stands lexemes op.item.text op.span ∧
        left.span.stop ≤ op.span.start ∧ op.span.stop ≤ right.span.start ∧ left.LaidOut ∧
        right.LaidOut
  | .logical span op left right =>
      span = left.span.to right.span ∧ Stands lexemes op.item.text op.span ∧
        left.span.stop ≤ op.span.start ∧ op.span.stop ≤ right.span.start ∧ left.LaidOut ∧
        right.LaidOut
  | .call span paren callee given =>
      span = callee.span.to paren ∧ Stands lexemes ")" paren ∧ callee.LaidOut ∧
        Expr.LaidOutBetween callee.span.stop paren.start given

/-- Expressions follow one another between two offsets. -/
def Expr.LaidOutBetween (first last : Nat) : List Expr → Prop
  | [] => first ≤ last
  | expr :: rest =>
      first ≤ expr.span.start ∧ expr.LaidOut ∧ Expr.LaidOutBetween expr.span.stop last rest

end

/-- An expression is laid out inside a span. -/
structure Expr.LaidOutIn (span : Span) (expr : Expr) : Prop where
  inside : expr.span.Inside span
  laid : expr.LaidOut lexemes

/-- A declared name stands inside a span. -/
structure Name.LaidOutIn (span : Span) (name : Name) : Prop where
  inside : name.span.Inside span
  stands : Stands lexemes name.item name.span

mutual

/-- The parts of a statement lie inside of it. -/
def Stmt.LaidOut : Stmt → Prop
  | .expression span value => Bounded lexemes span ∧ value.LaidOutIn lexemes span
  | .print span value => Bounded lexemes span ∧ value.LaidOutIn lexemes span
  | .variable span name initializer =>
      Bounded lexemes span ∧ Name.LaidOutIn lexemes span name ∧
        ∀ value ∈ initializer, value.LaidOutIn lexemes span
  | .function span name parameters body =>
      Bounded lexemes span ∧ Name.LaidOutIn lexemes span name ∧
        (∀ parameter ∈ parameters, Name.LaidOutIn lexemes span parameter) ∧
        Stmt.LaidOutIn span body
  | .block span body => Bounded lexemes span ∧ Stmt.LaidOutIn span body
  | .branch span condition consequent none =>
      Bounded lexemes span ∧ condition.LaidOutIn lexemes span ∧ consequent.span.Inside span ∧
        consequent.LaidOut
  | .branch span condition consequent (some alternative) =>
      Bounded lexemes span ∧ condition.LaidOutIn lexemes span ∧ consequent.span.Inside span ∧
        consequent.LaidOut ∧ alternative.span.Inside span ∧ alternative.LaidOut
  | .loop span condition body =>
      Bounded lexemes span ∧ condition.LaidOutIn lexemes span ∧ body.span.Inside span ∧
        body.LaidOut
  | .giveBack span keyword value =>
      Bounded lexemes span ∧ Stands lexemes "return" keyword ∧ keyword.Inside span ∧
        ∀ given ∈ value, Expr.LaidOutIn lexemes span given

/-- Statements lie inside a span. -/
def Stmt.LaidOutIn (span : Span) : List Stmt → Prop
  | [] => True
  | stmt :: rest => stmt.span.Inside span ∧ stmt.LaidOut ∧ Stmt.LaidOutIn span rest

end

end

section
variable {lexemes : List Lexeme} (order : InOrder lexemes)
include order

/-- The place of a text is the span of one lexeme. -/
theorem Stands.bounded {text : String} {span : Span} (stands : Stands lexemes text span) :
    Bounded lexemes span := by
  obtain ⟨lexeme, among, rfl, -⟩ := stands
  exact ⟨⟨lexeme, among, rfl⟩, ⟨lexeme, among, rfl⟩, order.proper lexeme among⟩

omit order in
/-- A span from the start of one bounded span to the end of a later one is bounded. -/
theorem Bounded.to {first last : Span} (start : Bounded lexemes first) (stop : Bounded lexemes last)
    (follows : first.stop ≤ last.start) : Bounded lexemes (first.to last) := by
  refine ⟨start.start, stop.stop, ?_⟩
  have before := start.proper
  have behind := stop.proper
  change first.start < last.stop
  omega

omit order in
/-- What lies between two offsets keeps them in order. -/
theorem Expr.LaidOutBetween.le {first last : Nat} : ∀ {given : List Expr},
    (∀ expr ∈ given, expr.LaidOut lexemes → expr.span.start < expr.span.stop) →
      Expr.LaidOutBetween lexemes first last given → first ≤ last
  | [], _, laid => laid
  | expr :: rest, proper, ⟨follows, laid, others⟩ => by
      have inside := proper expr List.mem_cons_self laid
      have behind := LaidOutBetween.le (fun expr given => proper expr (List.mem_cons_of_mem _ given))
        others
      omega

omit order in
/-- The offsets around a list can lie further apart. -/
theorem Expr.LaidOutBetween.weaken {first last before behind : Nat} {given : List Expr}
    (laid : Expr.LaidOutBetween lexemes first last given) (below : before ≤ first)
    (above : last ≤ behind) : Expr.LaidOutBetween lexemes before behind given := by
  induction given generalizing first before with
  | nil => exact Nat.le_trans below (Nat.le_trans laid above)
  | cons expr rest ih =>
      obtain ⟨follows, laidFirst, others⟩ := laid
      exact ⟨Nat.le_trans below follows, laidFirst, ih others (Nat.le_refl _)⟩

/-- An expression reaches from the start of a lexeme to the end of one. -/
theorem Expr.LaidOut.bounded : ∀ {expr : Expr}, expr.LaidOut lexemes → Bounded lexemes expr.span
  | .literal _ _, laid => laid
  | .variable _, laid => Stands.bounded order laid
  | .assign .., ⟨same, target, follows, value⟩ => by
      rw [Expr.span, same]
      exact (target.bounded order).to (bounded value) follows
  | .group _ inner, ⟨opening, closing, opens, closes, same, first, second, laid⟩ => by
      rw [Expr.span, same]
      have proper := (bounded laid).proper
      exact (opens.bounded order).to (closes.bounded order) (by omega)
  | .unary .., ⟨same, op, follows, operand⟩ => by
      rw [Expr.span, same]
      exact (op.bounded order).to (bounded operand) follows
  | .binary .., ⟨same, op, first, second, left, right⟩
  | .logical .., ⟨same, op, first, second, left, right⟩ => by
      rw [Expr.span, same]
      have proper := (op.bounded order).proper
      exact (bounded left).to (bounded right) (by omega)
  | .call _ _ callee given, ⟨same, paren, called, others⟩ => by
      rw [Expr.span, same]
      refine (bounded called).to (paren.bounded order) (others.le fun expr among laid => ?_)
      exact (bounded laid).proper

end

section
variable {lexemes : List Lexeme}

mutual

/-- Every span in an expression is bounded by lexemes. -/
theorem Expr.LaidOut.spans (order : InOrder lexemes) : ∀ {expr : Expr}, expr.LaidOut lexemes →
    ∀ span ∈ expr.spans, Bounded lexemes span
  | .literal _ _, laid => List.forall_mem_singleton.2 laid
  | .variable _, laid => List.forall_mem_singleton.2 (Stands.bounded order laid)
  | .assign .., laid => by
      have whole := laid.bounded order
      obtain ⟨-, target, -, value⟩ := laid
      exact List.forall_mem_cons.2 ⟨whole,
        List.forall_mem_cons.2 ⟨target.bounded order, value.spans order⟩⟩
  | .group .., laid => by
      have whole := laid.bounded order
      obtain ⟨_, _, -, -, -, -, -, inner⟩ := laid
      exact List.forall_mem_cons.2 ⟨whole, inner.spans order⟩
  | .unary .., laid => by
      have whole := laid.bounded order
      obtain ⟨-, op, -, operand⟩ := laid
      exact List.forall_mem_cons.2 ⟨whole,
        List.forall_mem_cons.2 ⟨op.bounded order, operand.spans order⟩⟩
  | .binary .., laid | .logical .., laid => by
      have whole := laid.bounded order
      obtain ⟨-, op, -, -, left, right⟩ := laid
      exact List.forall_mem_cons.2 ⟨whole, List.forall_mem_cons.2 ⟨op.bounded order,
        List.forall_mem_append.2 ⟨left.spans order, right.spans order⟩⟩⟩
  | .call .., laid => by
      have whole := laid.bounded order
      obtain ⟨-, paren, callee, given⟩ := laid
      exact List.forall_mem_cons.2 ⟨whole, List.forall_mem_cons.2 ⟨paren.bounded order,
        List.forall_mem_append.2 ⟨callee.spans order, given.spans order⟩⟩⟩

/-- Every span in expressions in a row is bounded by lexemes. -/
theorem Expr.LaidOutBetween.spans (order : InOrder lexemes) {first last : Nat} : ∀ {given : List Expr},
    Expr.LaidOutBetween lexemes first last given →
      ∀ span ∈ Expr.spansAll given, Bounded lexemes span
  | [], _ => nofun
  | _ :: _, ⟨_, laid, others⟩ => List.forall_mem_append.2 ⟨laid.spans order, others.spans order⟩

end

/-- Every span in an expression that may be absent is bounded by lexemes. -/
theorem spans_of_option (order : InOrder lexemes) {span : Span} {given : Option Expr}
    (laid : ∀ value ∈ given, value.LaidOutIn lexemes span) :
    ∀ span ∈ (given.map Expr.spans).getD [], Bounded lexemes span := by
  cases given with
  | none => exact nofun
  | some value => exact (laid value rfl).laid.spans order

mutual

/-- Every span in a statement is bounded by lexemes. -/
theorem Stmt.LaidOut.spans (order : InOrder lexemes) : ∀ {stmt : Stmt}, stmt.LaidOut lexemes →
    ∀ span ∈ stmt.spans, Bounded lexemes span
  | .expression .., ⟨whole, value⟩ | .print .., ⟨whole, value⟩ =>
      List.forall_mem_cons.2 ⟨whole, value.laid.spans order⟩
  | .variable .., ⟨whole, name, initializer⟩ =>
      List.forall_mem_cons.2 ⟨whole, List.forall_mem_cons.2 ⟨name.stands.bounded order,
        spans_of_option order initializer⟩⟩
  | .function .., ⟨whole, name, parameters, body⟩ =>
      List.forall_mem_cons.2 ⟨whole, List.forall_mem_cons.2 ⟨name.stands.bounded order,
        List.forall_mem_append.2 ⟨List.forall_mem_map.2 fun parameter given =>
          (parameters parameter given).stands.bounded order, body.spans order⟩⟩⟩
  | .block .., ⟨whole, body⟩ => List.forall_mem_cons.2 ⟨whole, body.spans order⟩
  | .branch _ _ _ none, ⟨whole, condition, _, consequent⟩ =>
      List.forall_mem_cons.2 ⟨whole,
        List.forall_mem_append.2 ⟨condition.laid.spans order, consequent.spans order⟩⟩
  | .branch _ _ _ (some _), ⟨whole, condition, _, consequent, _, alternative⟩ =>
      List.forall_mem_cons.2 ⟨whole, List.forall_mem_append.2 ⟨condition.laid.spans order,
        List.forall_mem_append.2 ⟨consequent.spans order, alternative.spans order⟩⟩⟩
  | .loop .., ⟨whole, condition, _, body⟩ =>
      List.forall_mem_cons.2 ⟨whole,
        List.forall_mem_append.2 ⟨condition.laid.spans order, body.spans order⟩⟩
  | .giveBack .., ⟨whole, keyword, _, value⟩ =>
      List.forall_mem_cons.2 ⟨whole, List.forall_mem_cons.2 ⟨keyword.bounded order,
        spans_of_option order value⟩⟩

/-- Every span in statements that are laid out is bounded by lexemes. -/
theorem Stmt.LaidOutIn.spans (order : InOrder lexemes) {span : Span} : ∀ {given : List Stmt},
    Stmt.LaidOutIn lexemes span given → ∀ span ∈ Stmt.spansAll given, Bounded lexemes span
  | [], _ => nofun
  | _ :: _, ⟨_, laid, others⟩ => List.forall_mem_append.2 ⟨laid.spans order, others.spans order⟩

end

end

end Lox
