import Lox.Proofs.Syntax.Steps
import Lox.Tree.Parser

namespace Lox

/-- An expression that is no assignment by itself. -/
def Expr.NoAssignment : Expr → Prop
  | .assign .. => False
  | .literal .. | .variable _ | .group .. | .unary .. | .binary .. | .logical .. | .call .. => True

namespace Parser

open Lox.Computation

/-- Every value of a production has a shape. -/
def Shapes {α : Type} (shape : α → Prop) (production : Production α) : Prop :=
  ∀ state value last, production state = .ok value last → shape value

namespace Shapes

variable {α β : Type} {shape : α → Prop} {other : β → Prop} {production : Production α}
  {next : α → Production β}

theorem stop {reason : Stop} : Shapes shape (throw reason : Production α) := nofun

theorem refuse {eof : Nat} {expected : String} :
    Shapes shape (refuse eof expected : Production α) := nofun

theorem pure {value : α} (shaped : shape value) : Shapes shape (pure value : Production α) := by
  intro state given last ended
  cases ended
  exact shaped

theorem bind (start : Shapes shape production)
    (rest : ∀ value, shape value → Shapes other (next value)) :
    Shapes other (production >>= next) := by
  intro state value last ended
  obtain ⟨first, middle, begun, ended⟩ := bind_eq_ok.1 ended
  exact rest first (start state first middle begun) middle value last ended

/-- Nothing needs to be known of a step before the last one. -/
theorem skip (rest : ∀ value, Shapes other (next value)) : Shapes other (production >>= next) := by
  intro state value last ended
  obtain ⟨first, middle, -, ended⟩ := bind_eq_ok.1 ended
  exact rest first middle value last ended

end Shapes

/-- An operator's expression is no assignment. -/
theorem apply_noAssignment (operator : Operator) (place : Span) (left right : Expr) :
    (operator.apply place left right).NoAssignment := by
  cases operator <;> trivial

section
variable (eof : Nat)

/-- With an amount of fuel the parts of an expression are no assignments, unless they stand in
parentheses. -/
structure ChainsShape (fuel : Nat) : Prop where
  operand (level : Level) : Shapes Expr.NoAssignment (operand eof fuel level)
  chain (level : Level) : Shapes Expr.NoAssignment (chain eof fuel level)
  chainAfter (level : Level) {left : Expr} (shaped : left.NoAssignment) :
    Shapes Expr.NoAssignment (chainAfter eof fuel level left)
  unary : Shapes Expr.NoAssignment (unary eof fuel)
  call : Shapes Expr.NoAssignment (call eof fuel)
  callAfter {callee : Expr} (shaped : callee.NoAssignment) :
    Shapes Expr.NoAssignment (callAfter eof fuel callee)
  primary : Shapes Expr.NoAssignment (primary eof fuel)

variable {eof} {fuel : Nat} (parts : ChainsShape eof fuel)
include parts

theorem operand_shapes (level : Level) :
    Shapes Expr.NoAssignment (operand eof (fuel + 1) level) := by
  rw [operand]
  split
  next tighter _ => exact parts.chain tighter
  next => exact parts.unary

theorem chain_shapes (level : Level) : Shapes Expr.NoAssignment (chain eof (fuel + 1) level) := by
  rw [chain]
  exact .bind (parts.operand level) fun left shaped => parts.chainAfter level shaped

/-- A chain goes on without assignments. -/
theorem chainAfter_shapes (level : Level) {left : Expr} (shaped : left.NoAssignment) :
    Shapes Expr.NoAssignment (chainAfter eof (fuel + 1) level left) := by
  rw [chainAfter]
  refine .skip fun next => ?_
  split
  next operator _ =>
    exact .skip fun place => .skip fun right =>
      parts.chainAfter level (apply_noAssignment operator place left right)
  next => exact .pure shaped

theorem unary_shapes : Shapes Expr.NoAssignment (unary eof (fuel + 1)) := by
  rw [unary]
  refine .skip fun next => ?_
  split
  next => exact .skip fun place => .skip fun inner => .pure trivial
  next => exact parts.call

theorem call_shapes : Shapes Expr.NoAssignment (call eof (fuel + 1)) := by
  rw [call]
  exact .bind parts.primary fun callee shaped => parts.callAfter shaped

theorem callAfter_shapes {callee : Expr} (shaped : callee.NoAssignment) :
    Shapes Expr.NoAssignment (callAfter eof (fuel + 1) callee) := by
  rw [callAfter]
  refine .skip fun taken => ?_
  split
  next =>
    refine .skip fun closes => ?_
    split
    all_goals exact .skip fun given => .skip fun paren => parts.callAfter trivial
  next => exact .pure shaped

omit parts in
/-- A primary expression is no assignment. -/
theorem primary_shapes : Shapes Expr.NoAssignment (primary eof (fuel + 1)) := by
  rw [primary]
  refine .skip fun state => ?_
  split
  next => exact .refuse
  next =>
    split
    next => exact .skip fun id => .skip fun place => .pure trivial
    next => exact .skip fun opening => .skip fun inner => .skip fun closing => .pure trivial
    next =>
      split
      next => exact .skip fun place => .pure trivial
      next => exact .refuse

end

/-- No production below an expression gives an assignment, whatever its fuel is. -/
theorem chainsShape (eof fuel : Nat) : ChainsShape eof fuel := by
  induction fuel with
  | zero =>
      exact ⟨fun _ => .stop, fun _ => .stop, fun _ _ _ => .stop, .stop, .stop, fun _ => .stop, .stop⟩
  | succ fuel parts =>
      exact ⟨operand_shapes parts, chain_shapes parts, fun level _ => chainAfter_shapes parts level,
        unary_shapes parts, call_shapes parts, callAfter_shapes parts, primary_shapes⟩

/-- An expression that is an assignment was read as a variable up to its sign. -/
theorem expression_assigns {eof fuel : Nat} {state last : State} {span : Span} {target : Occurrence}
    {value : Expr} (ended : expression eof (fuel + 1) state = .ok (.assign span target value) last) :
    ∃ middle, chain eof fuel .or state = .ok (.variable target) middle ∧
      middle.next? = some .equal ∧ expression eof fuel middle.advance = .ok value last ∧
      span = target.span.to value.span := by
  have shapes := (chainsShape eof fuel).chain .or
  rw [expression] at ended
  obtain ⟨found, middle, chained, ended⟩ := bind_eq_ok.1 ended
  rw [bind_of_ok isNext_apply] at ended
  split at ended
  next sign =>
    rw [bind_of_ok take_apply] at ended
    obtain ⟨given, reached, assigned, ended⟩ := bind_eq_ok.1 ended
    split at ended
    next =>
      cases ended
      exact ⟨middle, chained, of_decide_eq_true sign, assigned, rfl⟩
    next =>
      cases ended
      exact (shapes _ _ _ chained).elim
  next =>
    cases ended
    exact (shapes _ _ _ chained).elim

end Parser

end Lox
