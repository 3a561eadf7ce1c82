import Lox.Value

namespace Lox.ValueIn

variable {ε δ : Type} {closures : ClosureIn ε → ClosureIn δ → Prop}

/-- Values are alike when they are the same or like closures. -/
inductive Like (closures : ClosureIn ε → ClosureIn δ → Prop) : ValueIn ε → ValueIn δ → Prop
  | nil : Like closures .nil .nil
  | bool (value : Bool) : Like closures (.bool value) (.bool value)
  | number (value : Float) : Like closures (.number value) (.number value)
  | string (content : String) : Like closures (.string content) (.string content)
  | native (provided : Native) : Like closures (.native provided) (.native provided)
  | closure {declared : ClosureIn ε} {other : ClosureIn δ} (alike : closures declared other) :
      Like closures (.closure declared) (.closure other)

namespace Like

variable {value left right : ValueIn ε} {held other another : ValueIn δ}

theorem imp {more : ClosureIn ε → ClosureIn δ → Prop} (alike : Like closures value held)
    (weaker : ∀ declared other, closures declared other → more declared other) :
    Like more value held := by
  cases alike with
  | closure alike => exact .closure (weaker _ _ alike)
  | nil => exact .nil
  | bool value => exact .bool value
  | number value => exact .number value
  | string content => exact .string content
  | native provided => exact .native provided

theorem ofLiteral (literal : Literal) : Like closures (.ofLiteral literal) (.ofLiteral literal) := by
  cases literal with
  | nil => exact .nil
  | bool value => exact .bool value
  | number value => exact .number value
  | string content => exact .string content

theorem isTrue (alike : Like closures value held) : value.isTrue = held.isTrue := by
  cases alike <;> rfl

/-- Like values have the same type. -/
theorem type (alike : Like closures value held) : value.type = held.type := by
  cases alike <;> rfl

/-- Like values can both be called, or neither one can. -/
theorem isCallable (alike : Like closures value held) : value.isCallable = held.isCallable := by
  cases alike <;> rfl

theorem isDecidedBy (alike : Like closures value held) (op : LogicalOp) :
    op.isDecidedBy value = op.isDecidedBy held := by
  cases op with
  | and => rw [LogicalOp.isDecidedBy, LogicalOp.isDecidedBy, alike.isTrue]
  | or => exact alike.isTrue

/-- A unary operator has like results for like operands. -/
theorem applyUnary? (alike : Like closures value held) (op : UnaryOp) :
    Option.Rel (Like closures) (ValueIn.applyUnary? op value) (ValueIn.applyUnary? op held) := by
  cases op with
  | not =>
      simp only [ValueIn.applyUnary?, alike.isTrue]
      exact .some (.bool _)
  | negate =>
      cases alike with
      | number value => exact .some (.number _)
      | nil | bool | string | native | closure => exact .none

section
variable (keeps : ∀ declared other, closures declared other →
  declared.id = other.id ∧ declared.name = other.name)
include keeps

/-- Like values are printed alike. -/
theorem text (alike : Like closures value held) : value.text = held.text := by
  cases alike with
  | closure alike => simp only [ValueIn.text, (keeps _ _ alike).2]
  | nil | bool | number | string | native => rfl

/-- Values are equal when values like them are. -/
theorem equals (first : Like closures left other) (second : Like closures right another) :
    left.equals right = other.equals another := by
  cases first with
  | closure first =>
      cases second with
      | closure second =>
          simp only [ValueIn.equals, (keeps _ _ first).1, (keeps _ _ second).1]
      | nil | bool | number | string | native => rfl
  | nil | bool | number | string | native => cases second <;> rfl

/-- A binary operator has like results for like operands. -/
theorem applyBinary? (first : Like closures left other) (second : Like closures right another)
    (op : BinaryOp) :
    Option.Rel (Like closures) (ValueIn.applyBinary? op left right)
      (ValueIn.applyBinary? op other another) := by
  cases op with
  | equal =>
      simp only [ValueIn.applyBinary?, first.equals keeps second]
      exact .some (.bool _)
  | notEqual =>
      simp only [ValueIn.applyBinary?, first.equals keeps second]
      exact .some (.bool _)
  | add =>
      have joined {content same : String} (texts : content = same) :
          Option.Rel (Like closures) (some (.string content)) (some (.string same)) := by
        subst texts
        exact .some (.string _)
      have texts : left.text ++ right.text = other.text ++ another.text := by
        rw [first.text keeps, second.text keeps]
      cases first <;> cases second <;> first
        | exact .some (.number _)
        | exact joined texts
  | subtract | multiply | divide | less | lessEqual | greater | greaterEqual =>
      cases first <;> cases second <;> first
        | exact .none
        | exact .some (.number _)
        | exact .some (.bool _)

end

end Like

end Lox.ValueIn
