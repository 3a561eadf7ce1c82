import Lox.Proofs.Layout.Ordering

namespace Lox

mutual

/-- The occurrences in an expression in the order of a walk, which comes to an assigned variable
after the value. -/
def Expr.walked : Expr → List Occurrence
  | .literal _ _ => []
  | .variable target => [target]
  | .assign _ target value => value.walked ++ [target]
  | .group _ inner => inner.walked
  | .unary _ _ operand => operand.walked
  | .binary _ _ left right => left.walked ++ right.walked
  | .logical _ _ left right => left.walked ++ right.walked
  | .call _ _ callee given => callee.walked ++ Expr.walkedAll given

def Expr.walkedAll : List Expr → List Occurrence
  | [] => []
  | expr :: rest => expr.walked ++ Expr.walkedAll rest

end

def Expr.walkedOption (given : Option Expr) : List Occurrence := (given.map Expr.walked).getD []

mutual

/-- The walk finds every occurrence of an expression once. -/
theorem Expr.walked_perm : ∀ expr : Expr, expr.walked.Perm expr.targets
  | .literal .. => .nil
  | .variable target => .refl [target]
  | .assign _ target value =>
      (List.perm_append_singleton target value.walked).trans (value.walked_perm.cons target)
  | .group _ inner => inner.walked_perm
  | .unary _ _ operand => operand.walked_perm
  | .binary _ _ left right | .logical _ _ left right => left.walked_perm.append right.walked_perm
  | .call _ _ callee given => callee.walked_perm.append (Expr.walkedAll_perm given)

/-- The walk finds every occurrence of several expressions once. -/
theorem Expr.walkedAll_perm : ∀ exprs, (Expr.walkedAll exprs).Perm (Expr.targetsAll exprs)
  | [] => .nil
  | expr :: rest => expr.walked_perm.append (Expr.walkedAll_perm rest)

end

theorem Expr.walkedOption_perm (given : Option Expr) :
    (Expr.walkedOption given).Perm (Expr.targetsOption given) := by
  cases given with
  | none => exact .nil
  | some expr => exact expr.walked_perm

mutual

/-- The numbers in an expression are those of its occurrences. -/
theorem Expr.ids_eq : ∀ expr : Expr, expr.ids = expr.targets.map Occurrence.id
  | .literal .. | .variable .. => rfl
  | .assign _ target value => congrArg (target.id :: ·) value.ids_eq
  | .group _ inner => inner.ids_eq
  | .unary _ _ operand => operand.ids_eq
  | .binary _ _ left right => by
      rw [Expr.ids, Expr.targets, left.ids_eq, right.ids_eq, List.map_append]
  | .logical _ _ left right => by
      rw [Expr.ids, Expr.targets, left.ids_eq, right.ids_eq, List.map_append]
  | .call _ _ callee given => by
      rw [Expr.ids, Expr.targets, callee.ids_eq, Expr.idsAll_eq given, List.map_append]

/-- The numbers in expressions are those of their occurrences. -/
theorem Expr.idsAll_eq : ∀ exprs, Expr.idsAll exprs = (Expr.targetsAll exprs).map Occurrence.id
  | [] => rfl
  | expr :: rest => by
      rw [Expr.idsAll, Expr.targetsAll, expr.ids_eq, Expr.idsAll_eq rest, List.map_append]

end

theorem Expr.idsOption_eq (given : Option Expr) :
    (given.map Expr.ids).getD [] = (Expr.targetsOption given).map Occurrence.id := by
  cases given with
  | none => rfl
  | some expr => exact expr.ids_eq

mutual

/-- The numbers in a statement are those of its occurrences. -/
theorem Stmt.ids_eq : ∀ stmt : Stmt, stmt.ids = stmt.targets.map Occurrence.id
  | .expression _ value | .print _ value => value.ids_eq
  | .variable _ _ initializer => Expr.idsOption_eq initializer
  | .function _ _ _ body | .block _ body => Stmt.idsAll_eq body
  | .branch _ condition consequent none => by
      rw [Stmt.ids, Stmt.targets, condition.ids_eq, consequent.ids_eq, List.map_append]
  | .branch _ condition consequent (some alternative) => by
      rw [Stmt.ids, Stmt.targets, condition.ids_eq, consequent.ids_eq, alternative.ids_eq,
        List.map_append, List.map_append]
  | .loop _ condition body => by
      rw [Stmt.ids, Stmt.targets, condition.ids_eq, body.ids_eq, List.map_append]
  | .giveBack _ _ value => Expr.idsOption_eq value

/-- The numbers in statements are those of their occurrences. -/
theorem Stmt.idsAll_eq : ∀ stmts, Stmt.idsAll stmts = (Stmt.targetsAll stmts).map Occurrence.id
  | [] => rfl
  | stmt :: rest => by
      rw [Stmt.idsAll, Stmt.targetsAll, stmt.ids_eq, Stmt.idsAll_eq rest, List.map_append]

end

namespace Resolution

/-- A scope shows a name at an offset if a declaration of the name in it starts before. -/
def shows (names : List Name) (name : String) (place : Nat) : Bool :=
  names.any fun declared => declared.item = name && declared.span.start < place

/-- A place where a resolution can find something. Around it are the names that the scopes declare
from the innermost one outwards, and an occurrence can be in the initializer of a name. -/
inductive Site where
  | occurrence (target : Occurrence) (around : List (List Name)) (initialized : Option String)
  | declaration (name : Name) (around : List (List Name))
  | giveBack (keyword : Span) (inFunction : Bool)

namespace Site

def target? : Site → Option Occurrence
  | .occurrence target _ _ => some target
  | .declaration .. | .giveBack .. => none

/-- The scope with a number shows an occurrence. The innermost scope is left out in the initializer
of a variable with the same name. -/
def finds (around : List (List Name)) (initialized : Option String) (target : Occurrence)
    (number : Nat) : Bool :=
  (around[number]?.any fun names => shows names target.name target.span.start) &&
    !(number = 0 && initialized = some target.name)

/-- The number of the innermost scope that shows an occurrence. -/
def distance? (around : List (List Name)) (initialized : Option String) (target : Occurrence) :
    Option Nat := (List.range around.length).find? (finds around initialized target)

def record? : Site → Option (Nat × Nat)
  | .occurrence target around initialized =>
      (distance? around initialized target).map fun distance => (target.id, distance)
  | .declaration .. | .giveBack .. => none

/-- What is wrong at a site: a local variable occurs in its own initializer and no scope further
outwards shows its name, or the innermost scope shows a name that is declared, or a value is given
back outside of any function. -/
def error? : Site → Option (Located Error)
  | .occurrence target around initialized =>
      match around with
      | [] => none
      | _ :: outer =>
          if initialized = some target.name &&
              !outer.any fun names => shows names target.name target.span.start then
            some ⟨.ownInitializer target.name, target.span⟩
          else none
  | .declaration name around =>
      match around with
      | [] => none
      | names :: _ =>
          if shows names name.item name.span.start then
            some ⟨.alreadyDefined name.item, name.span⟩
          else none
  | .giveBack keyword inFunction =>
      if inFunction then none else some ⟨.returnOutsideFunction, keyword⟩

end Site

/-- The sites of occurrences under the same scopes. -/
def sitesIn (around : List (List Name)) (initialized : Option String) (targets : List Occurrence) :
    List Site := targets.map fun target => .occurrence target around initialized

mutual

/-- The sites of a statement, from the first one to the last one of a walk. -/
def sitesOf (around : List (List Name)) (inFunction : Bool) : Stmt → List Site
  | .expression _ value => sitesIn around none value.walked
  | .print _ value => sitesIn around none value.walked
  | .variable _ name initializer =>
      .declaration name around :: sitesIn around (some name.item) (Expr.walkedOption initializer)
  | .function _ name parameters body =>
      let inner := (parameters ++ Stmt.declaredIn body) :: around
      .declaration name around ::
        (parameters.map (.declaration · inner) ++ sitesOfAll inner true body)
  | .block _ body => sitesOfAll (Stmt.declaredIn body :: around) inFunction body
  | .branch _ condition consequent none =>
      sitesIn around none condition.walked ++ sitesOf around inFunction consequent
  | .branch _ condition consequent (some alternative) =>
      sitesIn around none condition.walked ++
        (sitesOf around inFunction consequent ++ sitesOf around inFunction alternative)
  | .loop _ condition body =>
      sitesIn around none condition.walked ++ sitesOf around inFunction body
  | .giveBack _ keyword value =>
      .giveBack keyword inFunction :: sitesIn around none (Expr.walkedOption value)

def sitesOfAll (around : List (List Name)) (inFunction : Bool) : List Stmt → List Site
  | [] => []
  | stmt :: rest => sitesOf around inFunction stmt ++ sitesOfAll around inFunction rest

end

/-- The sites of a program, whose top level is no scope. -/
def sitesOfProgram (program : Program) : List Site := sitesOfAll [] false program

section
variable {around : List (List Name)} {initialized : Option String}

/-- The sites of occurrences are sites of exactly these. -/
theorem targets_sitesIn (targets : List Occurrence) :
    (sitesIn around initialized targets).filterMap Site.target? = targets := by
  rw [sitesIn, List.filterMap_map]
  exact List.filterMap_some

/-- The site of a declaration has no occurrence. -/
theorem targets_declarations (names : List Name) :
    (names.map (Site.declaration · around)).filterMap Site.target? = [] := by
  induction names with
  | nil => rfl
  | cons name rest ih => exact ih

mutual

/-- Every occurrence in a statement has a site. -/
theorem targets_sitesOf {around : List (List Name)} {inFunction : Bool} : ∀ stmt : Stmt,
    ((sitesOf around inFunction stmt).filterMap Site.target?).Perm stmt.targets
  | .expression _ value | .print _ value => by
      rw [sitesOf, targets_sitesIn]
      exact value.walked_perm
  | .variable _ name initializer => by
      rw [sitesOf, List.filterMap_cons_none rfl, targets_sitesIn]
      exact Expr.walkedOption_perm initializer
  | .function _ name parameters body => by
      rw [sitesOf, List.filterMap_cons_none rfl, List.filterMap_append, targets_declarations]
      exact targets_sitesOfAll body
  | .block _ body => targets_sitesOfAll body
  | .branch _ condition consequent none => by
      rw [sitesOf, List.filterMap_append, targets_sitesIn]
      exact condition.walked_perm.append (targets_sitesOf consequent)
  | .branch _ condition consequent (some alternative) => by
      rw [sitesOf, List.filterMap_append, List.filterMap_append, targets_sitesIn]
      exact condition.walked_perm.append
        ((targets_sitesOf consequent).append (targets_sitesOf alternative))
  | .loop _ condition body => by
      rw [sitesOf, List.filterMap_append, targets_sitesIn]
      exact condition.walked_perm.append (targets_sitesOf body)
  | .giveBack _ keyword value => by
      rw [sitesOf, List.filterMap_cons_none rfl, targets_sitesIn]
      exact Expr.walkedOption_perm value

/-- The sites of statements have every occurrence once. -/
theorem targets_sitesOfAll {around : List (List Name)} {inFunction : Bool} : ∀ stmts : List Stmt,
    ((sitesOfAll around inFunction stmts).filterMap Site.target?).Perm (Stmt.targetsAll stmts)
  | [] => .nil
  | stmt :: rest => by
      rw [sitesOfAll, List.filterMap_append]
      exact (targets_sitesOf stmt).append (targets_sitesOfAll rest)

end

end

end Resolution

end Lox
