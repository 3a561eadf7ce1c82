import Lox.Proofs.Lexical.Values
import Lox.Proofs.Lexical.World

namespace Lox.Lexical

open Resolution
open Evaluation (Context Settled)

section
variable (context : Context)

/-- Some visits are checked when the distances agree with them and they find no error. -/
structure Checked (visits : List Visit) : Prop where
  agrees : Agrees context.distances visits
  clean : ∀ visit ∈ visits, visit.error? = none

/-- Closures are alike when they were made by the same execution of one declaration, and see the
same variables under the scopes that are open there. -/
structure RelatedClosure (world : World) (closure : Closure) (other : ClosureIn Locals) :
    Prop where
  id : closure.id = other.id
  name : closure.name = other.name
  parameters : closure.parameters = other.parameters
  body : closure.body = other.body
  distinct : closure.parameters.Nodup
  proper : Stmt.ProperAll closure.body
  declared : ∃ scopes, Sees world closure.env.frames scopes other.env ∧
    (∀ scope ∈ scopes, Settled scope) ∧
    Checked context (visitStmts (bodyScopes scopes closure.parameters) true closure.body)

/-- Values are alike when they are the same or like closures. -/
inductive Related (world : World) : Lox.Value → Value → Prop
  | nil : Related world .nil .nil
  | bool (value : Bool) : Related world (.bool value) (.bool value)
  | number (value : Float) : Related world (.number value) (.number value)
  | string (content : String) : Related world (.string content) (.string content)
  | native (provided : Native) : Related world (.native provided) (.native provided)
  | closure {declared : Closure} {other : ClosureIn Locals}
      (alike : RelatedClosure context world declared other) :
      Related world (.closure declared) (.closure other)

end

section
variable {context : Context} {visits others : List Visit}

theorem checked_append :
    Checked context (visits ++ others) ↔ Checked context visits ∧ Checked context others := by
  constructor
  · intro checked
    obtain ⟨first, second⟩ := agrees_append.1 checked.agrees
    exact ⟨⟨first, fun visit given => checked.clean visit (List.mem_append_left _ given)⟩,
      ⟨second, fun visit given => checked.clean visit (List.mem_append_right _ given)⟩⟩
  · rintro ⟨first, second⟩
    refine ⟨agrees_append.2 ⟨first.agrees, second.agrees⟩, ?_⟩
    intro visit given
    rcases List.mem_append.1 given with early | late
    · exact first.clean visit early
    · exact second.clean visit late

theorem Checked.tail {visit : Visit} (checked : Checked context (visit :: visits)) :
    Checked context visits :=
  ⟨checked.agrees.tail, fun other given => checked.clean other (List.mem_cons_of_mem _ given)⟩

/-- A declaration that is checked introduces a name that its scope does not have. -/
theorem Checked.fresh {name : Name} {scopes : List Scope}
    (checked : Checked context (.declaration name scopes :: visits)) :
    declared scopes name.item = false :=
  Visit.error?_declaration.1 (checked.clean _ List.mem_cons_self)

/-- The distance of an occurrence that is checked is the one that the table has. -/
theorem Checked.distance {target : Occurrence} {scopes : List Scope}
    (checked : Checked context (.occurrence target scopes :: visits)) :
    context.distances[target.id]? = distanceIn? scopes target.name :=
  checked.agrees List.mem_cons_self

end

/-- Related closures stay so when the world grows. -/
theorem RelatedClosure.grow {context : Context} {changing : FrameId → Prop} {world after : World}
    {closure : Closure} {other : ClosureIn Locals}
    (alike : RelatedClosure context world closure other) (grows : world.Grows changing after) :
    RelatedClosure context after closure other := by
  obtain ⟨scopes, sees, settled, checked⟩ := alike.declared
  exact { alike with declared := ⟨scopes, sees.grow grows, settled, checked⟩ }

namespace Related

variable {context : Context} {world : World} {value : Lox.Value} {held : Value}

/-- Related values stay so when the world grows. -/
theorem grow {changing : FrameId → Prop} {after : World} (alike : Related context world value held)
    (grows : world.Grows changing after) : Related context after value held := by
  cases alike with
  | closure alike => exact .closure (alike.grow grows)
  | nil => exact .nil
  | bool value => exact .bool value
  | number value => exact .number value
  | string content => exact .string content
  | native provided => exact .native provided

/-- Related values that may be absent stay so when the world grows. -/
theorem grow_option {changing : FrameId → Prop} {after : World} {given : Option Lox.Value}
    {same : Option Value} (alike : Option.Rel (Related context world) given same)
    (grows : world.Grows changing after) : Option.Rel (Related context after) given same := by
  cases alike with
  | none => exact .none
  | some alike => exact .some (alike.grow grows)

/-- Related values are alike. -/
theorem like (alike : Related context world value held) :
    ValueIn.Like (RelatedClosure context world) value held := by
  cases alike with
  | closure alike => exact .closure alike
  | nil => exact .nil
  | bool value => exact .bool value
  | number value => exact .number value
  | string content => exact .string content
  | native provided => exact .native provided

theorem of_like (alike : ValueIn.Like (RelatedClosure context world) value held) :
    Related context world value held := by
  cases alike with
  | closure alike => exact .closure alike
  | nil => exact .nil
  | bool value => exact .bool value
  | number value => exact .number value
  | string content => exact .string content
  | native provided => exact .native provided

/-- Related closures have the same number and the same name. -/
theorem keeps (world : World) (closure : Closure) (other : ClosureIn Locals)
    (alike : RelatedClosure context world closure other) :
    closure.id = other.id ∧ closure.name = other.name :=
  ⟨alike.id, alike.name⟩

theorem ofLiteral (literal : Literal) :
    Related context world (.ofLiteral literal) (.ofLiteral literal) :=
  .of_like (.ofLiteral literal)

/-- Related values are both true or both false. -/
theorem isTrue (alike : Related context world value held) : value.isTrue = held.isTrue :=
  alike.like.isTrue

theorem isCallable (alike : Related context world value held) :
    value.isCallable = held.isCallable := alike.like.isCallable

/-- Related values decide the same logical operators. -/
theorem isDecidedBy (alike : Related context world value held) (op : LogicalOp) :
    op.isDecidedBy value = op.isDecidedBy held := alike.like.isDecidedBy op

end Related

end Lox.Lexical
