import Lox.Proofs.Layout.Reports
import Lox.Proofs.Lexical.World
import Lox.Proofs.Scope.Sites
import Lox.Proofs.Syntax.Allotment

namespace Lox

namespace Resolution

open Evaluation (Settled settled_introduced settled_nil settled_scopesAfter)

/-- What is found at one place: the occurrence that is there, its distance, and an error. -/
structure Finding where
  target? : Option Occurrence
  record? : Option (Nat × Nat)
  error? : Option (Located Error)

def Visit.target? : Visit → Option Occurrence
  | .occurrence target _ => some target
  | .declaration .. | .giveBack .. => none

def Visit.finding (visit : Visit) : Finding := ⟨visit.target?, visit.record?, visit.error?⟩

def Site.finding (site : Site) : Finding := ⟨site.target?, site.record?, site.error?⟩

/-- The open scopes have the names that the scopes around show at some offsets. -/
def Mirrors (places : List Nat) : List Scope → List (List Name) → Prop :=
  List.Forall₂ fun scope names =>
    ∀ name, ∀ place ∈ places, shows names name place = scope.binds name

/-- The open scopes have the names that the scopes around show at some offsets, but for those that
are pending in the innermost scope. -/
def Awaits (pending : List Name) (places : List Nat) : List Scope → List (List Name) → Prop
  | [], [] => True
  | scope :: outer, names :: around =>
      (∀ name, ∀ place ∈ places,
        shows names name place = (scope.binds name || shows pending name place)) ∧
      Mirrors places outer around
  | [], _ :: _ | _ :: _, [] => False

/-- A name is shown by the first declaration or by the others. -/
theorem shows_cons (declared : Name) (names : List Name) (name : String) (place : Nat) :
    shows (declared :: names) name place =
      ((declared.item = name && declared.span.start < place) || shows names name place) :=
  List.any_cons

/-- A name is shown by one of two lists of declarations. -/
theorem shows_append (names others : List Name) (name : String) (place : Nat) :
    shows (names ++ others) name place = (shows names name place || shows others name place) :=
  List.any_append

/-- What starts at an offset or behind it is not shown there. -/
theorem shows_of_behind {names : List Name} {place : Nat}
    (behind : ∀ declared ∈ names, place ≤ declared.span.start) (name : String) :
    shows names name place = false := by
  refine List.any_eq_false.2 fun declared given => ?_
  have starts := behind declared given
  simp only [Bool.and_eq_true, decide_eq_true_eq, not_and, Nat.not_lt]
  exact fun _ => starts

section
variable {places others : List Nat} {pending names : List Name} {scopes : List Scope}
  {around : List (List Name)}

/-- Scopes mirror the declarations at fewer places, too. -/
theorem Mirrors.mono (mirrors : Mirrors places scopes around) (among : others ⊆ places) :
    Mirrors others scopes around :=
  mirrors.imp fun _ _ same name place given => same name place (among given)

namespace Awaits

/-- Scopes await the same declarations at fewer places. -/
theorem mono (awaits : Awaits pending places scopes around) (among : others ⊆ places) :
    Awaits pending others scopes around := by
  match scopes, around, awaits with
  | [], [], _ => trivial
  | _ :: _, _ :: _, ⟨first, outer⟩ =>
      exact ⟨fun name place given => first name place (among given), outer.mono among⟩

/-- Names that are not shown at the offsets are not pending there. -/
theorem dropping (awaits : Awaits (pending ++ names) places scopes around)
    (behind : ∀ declared ∈ names, ∀ place ∈ places, place ≤ declared.span.start) :
    Awaits pending places scopes around := by
  match scopes, around, awaits with
  | [], [], _ => trivial
  | _ :: _, _ :: _, ⟨first, outer⟩ =>
      refine ⟨fun name place given => ?_, outer⟩
      have hidden := shows_of_behind (fun declared among => behind declared among place given) name
      rw [first name place given, shows_append, hidden, Bool.or_false]

/-- Scopes that await nothing mirror the declarations. -/
theorem mirrors (awaits : Awaits [] places scopes around) : Mirrors places scopes around := by
  match scopes, around, awaits with
  | [], [], _ => exact .nil
  | _ :: _, _ :: _, ⟨first, outer⟩ =>
      refine .cons (fun name place given => ?_) outer
      rw [first name place given]
      exact Bool.or_false _

/-- A name that starts before the offsets is no longer pending when it is declared. -/
theorem declare {declared : Name} (awaits : Awaits (declared :: pending) places scopes around)
    (before : Name.StartsBefore declared places) (passed : Bool) :
    Awaits pending places (put scopes declared.item passed) around := by
  match scopes, around, awaits with
  | [], [], _ => trivial
  | scope :: _, _ :: _, ⟨first, outer⟩ =>
      refine ⟨fun name place given => ?_, outer⟩
      rw [first name place given, shows_cons, Bindings.binds_put,
        decide_eq_true (before place given), Bool.and_true, ← Bool.or_assoc,
        Bool.or_comm (scope.binds name)]

/-- A name that is declared again changes nothing. -/
theorem define {name : String} {passed : Bool}
    (awaits : Awaits pending places (put scopes name passed) around) (again : Bool) :
    Awaits pending places (put (put scopes name passed) name again) around := by
  match scopes, around, awaits with
  | [], [], _ => trivial
  | scope :: _, _ :: _, ⟨first, outer⟩ =>
      refine ⟨fun other place given => ?_, outer⟩
      have same : (Bindings.put (Bindings.put scope name passed) name again).binds other =
          (Bindings.put scope name passed).binds other := by
        rw [Bindings.binds_put, Bindings.binds_put, ← Bool.or_assoc, Bool.or_self]
      rw [first other place given, same]

/-- An introduced name is no longer awaited. -/
theorem introduce {declared : Name} (awaits : Awaits (declared :: pending) places scopes around)
    (before : Name.StartsBefore declared places) :
    Awaits pending places (introduced scopes declared.item) around :=
  (awaits.declare before false).define true

/-- Introduced names are no longer awaited. -/
theorem introduceAll {declared : List Name}
    (awaits : Awaits (declared ++ pending) places scopes around)
    (before : ∀ name ∈ declared, Name.StartsBefore name places) :
    Awaits pending places ((declared.map Located.item).foldl introduced scopes) around := by
  induction declared generalizing scopes with
  | nil => exact awaits
  | cons name rest ih =>
      exact ih (awaits.introduce (before name List.mem_cons_self)) fun other given =>
        before other (List.mem_cons_of_mem _ given)

end Awaits

/-- In a new scope all of its names are pending. -/
theorem Mirrors.opened (mirrors : Mirrors places scopes around) (names : List Name) :
    Awaits names places ([] :: scopes) (names :: around) := ⟨fun _ _ _ => rfl, mirrors⟩

/-- The scope with a number shows what it has. -/
theorem Mirrors.shown (mirrors : Mirrors places scopes around) {place : Nat}
    (given : place ∈ places) (name : String) (number : Nat) :
    (around[number]?.any fun names => shows names name place) =
      scopes[number]?.any fun scope => scope.binds name := by
  induction mirrors generalizing number with
  | nil => simp
  | cons first _ ih =>
      cases number with
      | zero => exact first name place given
      | succ number => exact ih number

/-- Some scope shows a name if some scope has it. -/
theorem Mirrors.any (mirrors : Mirrors places scopes around) {place : Nat}
    (given : place ∈ places) (name : String) :
    (around.any fun names => shows names name place) = scopes.any fun scope => scope.binds name := by
  induction mirrors with
  | nil => rfl
  | cons first _ ih => rw [List.any_cons, List.any_cons, first name place given, ih]

end

/-- The first number of an element is the number of the first element. -/
theorem find?_range {α : Type} (p : α → Bool) (given : List α) :
    ((List.range given.length).find? fun number => given[number]?.any p) = given.findIdx? p := by
  induction given with
  | nil => rfl
  | cons first rest ih =>
      rw [List.length_cons, List.range_succ_eq_map, List.find?_cons, List.findIdx?_cons]
      change (match p first with | true => _ | false => _) = _
      cases p first with
      | true => rfl
      | false =>
          simp only [List.find?_map]
          exact congrArg (Option.map Nat.succ) ih

section
variable {scopes : List Scope} {around : List (List Name)} {initialized : Option String}
  {target : Occurrence}

/-- An occurrence in open scopes has the distance that the scopes around it say. -/
theorem distanceIn?_eq (mirrors : Mirrors [target.span.start] scopes around)
    (pending : initializing scopes target.name =
      (!around.isEmpty && decide (initialized = some target.name))) :
    distanceIn? scopes target.name = Site.distance? around initialized target := by
  have shown := mirrors.shown (List.mem_singleton_self _) target.name
  have length := mirrors.length_eq
  by_cases same : initialized = some target.name
  · cases mirrors with
    | nil => rfl
    | @cons scope names outer further _ others =>
        have begun : initializing (scope :: outer) target.name = true := by simp [pending, same]
        have passed (number : Nat) : Site.finds (names :: further) initialized target (number + 1) =
            outer[number]?.any fun scope => scope.binds target.name := by
          rw [Site.finds, shown]
          simp
        have first : Site.finds (names :: further) initialized target 0 = false := by
          simp [Site.finds, same]
        rw [distanceIn?_of_initializing begun, Site.distance?, List.length_cons,
          List.range_succ_eq_map, List.find?_cons_of_neg (by simp [first]), List.find?_map,
          ← others.length_eq, ← find?_range]
        exact congrArg (fun p => Option.map _ (List.find? p _)) (funext passed).symm
  · have other : initializing scopes target.name = false := by simp [pending, same]
    have finds : Site.finds around initialized target =
        fun number => scopes[number]?.any fun scope => scope.binds target.name := by
      funext number
      rw [Site.finds, shown, decide_eq_false same, Bool.and_false, Bool.not_false, Bool.and_true]
    rw [distanceIn?_of_other other, Site.distance?, ← length, finds, find?_range]

/-- A visited occurrence is found at its site. -/
theorem finding_occurrence (mirrors : Mirrors [target.span.start] scopes around)
    (pending : initializing scopes target.name =
      (!around.isEmpty && decide (initialized = some target.name))) :
    (Visit.occurrence target scopes).finding = (Site.occurrence target around initialized).finding := by
  have distance := distanceIn?_eq mirrors pending
  have error : (Visit.occurrence target scopes).error? =
      (Site.occurrence target around initialized).error? := by
    cases mirrors with
    | nil => rfl
    | @cons scope names outer further _ others =>
        have shown := Mirrors.any others (List.mem_singleton_self _) target.name
        simp only [Visit.error?, Site.error?, shown]
        by_cases same : initialized = some target.name
        · have begun : initializing (scope :: outer) target.name = true := by simp [pending, same]
          have none : (distanceIn? (scope :: outer) target.name).isNone =
              !outer.any fun scope => scope.binds target.name := by
            rw [distanceIn?_of_initializing begun, Option.isNone_map, ← List.findIdx?_isSome,
              Option.not_isSome]
          rw [begun, none, decide_eq_true same]
        · have other : initializing (scope :: outer) target.name = false := by simp [pending, same]
          simp only [other, decide_eq_false same, Bool.false_and]
  simp only [Visit.finding, Site.finding, error, Visit.record?, distance, Site.record?,
    Visit.target?, Site.target?]

/-- A visited declaration is found at its site. -/
theorem finding_declaration {name : Name} {pending : List Name}
    (awaits : Awaits pending [name.span.start] scopes around)
    (behind : ∀ declared ∈ pending, name.span.start ≤ declared.span.start) :
    (Visit.declaration name scopes).finding = (Site.declaration name around).finding := by
  match scopes, around, awaits with
  | [], [], _ => rfl
  | scope :: _, names :: _, ⟨first, _⟩ =>
      have shown := first name.item name.span.start (List.mem_singleton_self _)
      rw [shows_of_behind behind, Bool.or_false] at shown
      simp only [Visit.finding, Site.finding, Visit.error?, Site.error?, declared, shown]
      rfl

/-- The occurrences in an expression, in the same scopes. -/
theorem findings_occurrences {targets : List Occurrence}
    (mirrors : Mirrors (Occurrence.starts targets) scopes around)
    (pending : ∀ name, initializing scopes name =
      (!around.isEmpty && decide (initialized = some name))) :
    (targets.map (Visit.occurrence · scopes)).map Visit.finding =
      (sitesIn around initialized targets).map Site.finding := by
  rw [sitesIn, List.map_map, List.map_map]
  refine List.map_congr_left fun target among => ?_
  refine finding_occurrence (mirrors.mono ?_) (pending target.name)
  exact List.cons_subset.2 ⟨List.mem_map_of_mem among, List.nil_subset _⟩

end

mutual

/-- The visits of an expression are those of its occurrences, in the order of the walk. -/
theorem visitExpr_eq (scopes : List Scope) : ∀ expr : Expr,
    visitExpr scopes expr = expr.walked.map (Visit.occurrence · scopes)
  | .literal .. | .variable .. => rfl
  | .assign _ target value => by
      rw [visitExpr, visitExpr_eq scopes value, Expr.walked, List.map_append]
      rfl
  | .group _ inner => visitExpr_eq scopes inner
  | .unary _ _ operand => visitExpr_eq scopes operand
  | .binary _ _ left right => by
      rw [visitExpr, visitExpr_eq scopes left, visitExpr_eq scopes right, Expr.walked,
        List.map_append]
  | .logical _ _ left right => by
      rw [visitExpr, visitExpr_eq scopes left, visitExpr_eq scopes right, Expr.walked,
        List.map_append]
  | .call _ _ callee given => by
      rw [visitExpr, visitExpr_eq scopes callee, visitExprs_eq scopes given, Expr.walked,
        List.map_append]

/-- The visits of several expressions are those of their occurrences. -/
theorem visitExprs_eq (scopes : List Scope) : ∀ exprs : List Expr,
    visitExprs scopes exprs = (Expr.walkedAll exprs).map (Visit.occurrence · scopes)
  | [] => rfl
  | expr :: rest => by
      rw [visitExprs, visitExpr_eq scopes expr, visitExprs_eq scopes rest, Expr.walkedAll,
        List.map_append]

end

theorem visitOption_eq (scopes : List Scope) (given : Option Expr) :
    visitOption scopes given = (Expr.walkedOption given).map (Visit.occurrence · scopes) := by
  cases given with
  | none => rfl
  | some expr => exact visitExpr_eq scopes expr

section
variable {scopes : List Scope} {around : List (List Name)}

/-- The walk finds no occurrence that is not in the expression. -/
theorem walked_starts (expr : Expr) : Occurrence.starts expr.walked ⊆ Occurrence.starts expr.targets :=
  (expr.walked_perm.map _).subset

theorem walkedOption_starts (given : Option Expr) :
    Occurrence.starts (Expr.walkedOption given) ⊆ Occurrence.starts (Expr.targetsOption given) :=
  ((Expr.walkedOption_perm given).map _).subset

variable (settled : ∀ scope ∈ scopes, Settled scope)
include settled

/-- No name is between its declaration and the end of its initializer. -/
theorem pending_of_settled (name : String) : initializing scopes name =
    (!around.isEmpty && decide ((none : Option String) = some name)) := by
  rw [initializing_of_settled settled, decide_eq_false nofun, Bool.and_false]

/-- What is found in an expression is found at its sites. -/
theorem findings_expr {expr : Expr}
    (mirrors : Mirrors (Occurrence.starts expr.targets) scopes around) :
    (visitExpr scopes expr).map Visit.finding = (sitesIn around none expr.walked).map Site.finding := by
  rw [visitExpr_eq]
  exact findings_occurrences (mirrors.mono (walked_starts expr)) (pending_of_settled settled)

theorem findings_option {given : Option Expr}
    (mirrors : Mirrors (Occurrence.starts (Expr.targetsOption given)) scopes around) :
    (visitOption scopes given).map Visit.finding =
      (sitesIn around none (Expr.walkedOption given)).map Site.finding := by
  rw [visitOption_eq]
  exact findings_occurrences (mirrors.mono (walkedOption_starts given)) (pending_of_settled settled)

/-- In an initializer the innermost scope is between the declaration of the name and its end. -/
theorem pending_of_put {places : List Nat} {pending : List Name}
    (awaits : Awaits pending places scopes around) (declared name : String) :
    initializing (put scopes declared false) name =
      (!around.isEmpty && decide (some declared = some name)) := by
  match scopes, around, awaits with
  | [], [], _ => rfl
  | scope :: _, _ :: _, _ =>
      have before := settled scope List.mem_cons_self name
      simp only [initializing, put, Bindings.value?_put]
      by_cases same : declared = name <;> simp [same, before]

/-- What is found in an initializer is found at its sites, where its own name is pending. -/
theorem findings_initializer {name : Name} {initializer : Option Expr}
    (awaits : Awaits [name] (Occurrence.starts (Expr.targetsOption initializer)) scopes around)
    (before : Name.StartsBefore name (Occurrence.starts (Expr.targetsOption initializer))) :
    (visitOption (put scopes name.item false) initializer).map Visit.finding =
      (sitesIn around (some name.item) (Expr.walkedOption initializer)).map Site.finding := by
  have mirrors := (awaits.declare before false).mirrors
  rw [visitOption_eq]
  exact findings_occurrences (mirrors.mono (walkedOption_starts initializer))
    (pending_of_put settled awaits name.item)

omit settled in
/-- The parameters of a function are declared one after another, before the names in its body. -/
theorem findings_parameters {parameters names : List Name} {places : List Nat}
    (awaits : Awaits (parameters ++ names) places scopes around)
    (among : Name.starts parameters ⊆ places)
    (sorted : parameters.Pairwise fun first second => first.span.start < second.span.start)
    (before : ∀ parameter ∈ parameters, ∀ name ∈ names, parameter.span.start < name.span.start) :
    (visitParameters scopes parameters).map Visit.finding =
      (parameters.map (Site.declaration · around)).map Site.finding := by
  induction parameters generalizing scopes places with
  | nil => rfl
  | cons name rest ih =>
      obtain ⟨first, sorted⟩ := List.pairwise_cons.1 sorted
      have here : (Visit.declaration name scopes).finding = (Site.declaration name around).finding := by
        refine finding_declaration (awaits.mono ?_) fun declared given => ?_
        · exact List.cons_subset.2 ⟨among List.mem_cons_self, List.nil_subset _⟩
        · rcases List.mem_cons.1 given with rfl | given
          · exact Nat.le_refl _
          rcases List.mem_append.1 given with later | inner
          · exact Nat.le_of_lt (first declared later)
          · exact Nat.le_of_lt (before name List.mem_cons_self declared inner)
      have further : Awaits (rest ++ names) (Name.starts rest) (introduced scopes name.item) around := by
        refine Awaits.introduce (awaits.mono fun place given => ?_) fun place given => ?_
        · exact among (List.mem_cons_of_mem _ given)
        · obtain ⟨other, later, rfl⟩ := List.mem_map.1 given
          exact first other later
      rw [visitParameters, List.map_cons, here, List.map_cons, List.map_cons,
        ih further (List.Subset.refl _) sorted fun parameter given =>
          before parameter (List.mem_cons_of_mem _ given)]

end

/-- A statement of a scope declares at most its own name. -/
theorem scopesAfter_of_name? {stmt : Stmt} (proper : stmt.Proper) (scopes : List Scope) :
    scopesAfter scopes stmt = stmt.name?.elim scopes fun name => introduced scopes name.item := by
  cases stmt with
  | «variable» | function => rfl
  | branch | loop | expression | print | block | giveBack =>
      exact scopesAfter_of_proper scopes _ proper rfl

/-- Scopes stay settled when parameters are introduced. -/
theorem settled_introducedAll {scopes : List Scope} (settled : ∀ scope ∈ scopes, Settled scope)
    (names : List String) : ∀ scope ∈ names.foldl introduced scopes, Settled scope := by
  induction names generalizing scopes with
  | nil => exact settled
  | cons name rest ih => exact ih (settled_introduced settled name)

theorem settled_opened {scopes : List Scope} (settled : ∀ scope ∈ scopes, Settled scope) :
    ∀ scope ∈ [] :: scopes, Settled scope := List.forall_mem_cons.2 ⟨settled_nil, settled⟩

namespace Awaits

variable {places : List Nat} {pending : List Name} {scopes : List Scope}
  {around : List (List Name)} {stmt : Stmt}

/-- A part that declares nothing stands in the scopes of the whole. -/
theorem part (awaits : Awaits [] places scopes around) (silent : stmt.declares = false)
    (among : stmt.places ⊆ places) : Awaits stmt.name?.toList stmt.places scopes around := by
  rw [Stmt.name?_of_silent silent]
  exact awaits.mono among

/-- Behind a statement its own name is no longer pending. -/
theorem behind (awaits : Awaits (stmt.name?.toList ++ pending) places scopes around)
    (proper : stmt.Proper) (before : ∀ name ∈ stmt.name?, Name.StartsBefore name places) :
    Awaits pending places (scopesAfter scopes stmt) around := by
  rw [scopesAfter_of_name? proper]
  cases declares : stmt.name? with
  | none =>
      rw [declares] at awaits
      exact awaits
  | some name =>
      rw [declares] at awaits
      exact awaits.introduce (before name declares)

end Awaits

mutual

/-- A resolution finds in a statement what the declarations around its parts say. -/
theorem findings_stmt {scopes : List Scope} {around : List (List Name)} (inFunction : Bool)
    (settled : ∀ scope ∈ scopes, Settled scope) : ∀ stmt : Stmt, stmt.Ordered → stmt.Proper →
      Awaits stmt.name?.toList stmt.places scopes around →
        (visitStmt scopes inFunction stmt).map Visit.finding =
          (sitesOf around inFunction stmt).map Site.finding
  | .expression _ value, _, _, awaits => findings_expr settled awaits.mirrors
  | .print _ value, _, _, awaits => findings_expr settled awaits.mirrors
  | .variable _ name initializer, before, _, awaits => by
      have here := finding_declaration (awaits.mono (List.cons_subset.2 ⟨List.mem_cons_self,
        List.nil_subset _⟩)) (List.forall_mem_singleton.2 (Nat.le_refl _))
      have inside := findings_initializer settled (awaits.mono (List.subset_cons_self _ _)) before
      rw [visitStmt, sitesOf, List.map_cons, here, inside, List.map_cons]
  | .function _ name parameters body, ⟨sorted, before, ordered⟩, proper, awaits => by
      obtain ⟨first, sorted⟩ := List.pairwise_cons.1 sorted
      have here := finding_declaration (awaits.mono (List.cons_subset.2 ⟨List.mem_cons_self,
        List.nil_subset _⟩)) (List.forall_mem_singleton.2 (Nat.le_refl _))
      have inner := settled_opened (settled_introduced settled name.item)
      have opened : Awaits (parameters ++ Stmt.declaredIn body)
          (Name.starts parameters ++ Stmt.placesAll body)
          ([] :: introduced scopes name.item) ((parameters ++ Stmt.declaredIn body) :: around) := by
        refine (awaits.mono (List.subset_cons_self _ _)).introduce ?_ |>.mirrors.opened _
        refine List.forall_mem_append.2 ⟨fun place given => ?_, before name List.mem_cons_self⟩
        obtain ⟨parameter, among, rfl⟩ := List.mem_map.1 given
        exact first parameter among
      have declared := findings_parameters opened (List.subset_append_left _ _) sorted
        fun parameter among name given =>
          before parameter (List.mem_cons_of_mem _ among) _ (Stmt.declaredIn_subset given)
      have entered := (opened.mono (List.subset_append_right _ _)).introduceAll fun parameter among =>
        before parameter (List.mem_cons_of_mem _ among)
      have within := findings_stmts true
        (settled_introducedAll inner (parameters.map Located.item)) body ordered proper entered
      rw [visitStmt, sitesOf]
      simp only [List.map_cons, List.map_append, here, declared]
      exact congrArg (fun rest => _ :: (_ ++ rest)) within
  | .block _ body, ordered, proper, awaits =>
      findings_stmts inFunction (settled_opened settled) body ordered proper (awaits.mirrors.opened _)
  | .branch _ condition consequent none, ordered, ⟨silent, proper⟩, awaits => by
      have tested := findings_expr settled (awaits.mono (List.subset_append_left _ _)).mirrors
      have chosen := findings_stmt inFunction settled consequent ordered proper
        (awaits.part silent (List.subset_append_right _ _))
      rw [visitStmt, sitesOf, List.map_append, List.map_append, tested, chosen]
  | .branch _ condition consequent (some alternative), ⟨ordered, orderedOther⟩,
      ⟨⟨silent, proper⟩, other, properOther⟩, awaits => by
      have tested := findings_expr settled (awaits.mono (List.subset_append_left _ _)).mirrors
      have chosen := findings_stmt inFunction settled consequent ordered proper
        (awaits.part silent fun _ given => List.mem_append_right _ (List.mem_append_left _ given))
      have refused := findings_stmt inFunction settled alternative orderedOther properOther
        (awaits.part other fun _ given => List.mem_append_right _ (List.mem_append_right _ given))
      rw [visitStmt, sitesOf, scopesAfter_of_proper scopes consequent proper silent]
      simp only [List.map_append, tested, chosen, refused]
  | .loop _ condition body, ordered, ⟨silent, proper⟩, awaits => by
      have tested := findings_expr settled (awaits.mono (List.subset_append_left _ _)).mirrors
      have repeated := findings_stmt inFunction settled body ordered proper
        (awaits.part silent (List.subset_append_right _ _))
      rw [visitStmt, sitesOf, List.map_append, List.map_append, tested, repeated]
  | .giveBack _ keyword value, _, _, awaits => by
      rw [visitStmt, sitesOf, List.map_cons, findings_option settled awaits.mirrors, List.map_cons]
      rfl

/-- What is found in statements is found at their sites. -/
theorem findings_stmts {scopes : List Scope} {around : List (List Name)} (inFunction : Bool)
    (settled : ∀ scope ∈ scopes, Settled scope) : ∀ stmts : List Stmt, Stmt.OrderedAll stmts →
      Stmt.ProperAll stmts → Awaits (Stmt.declaredIn stmts) (Stmt.placesAll stmts) scopes around →
        (visitStmts scopes inFunction stmts).map Visit.finding =
          (sitesOfAll around inFunction stmts).map Site.finding
  | [], _, _, _ => rfl
  | stmt :: rest, ⟨before, behind, ordered, others⟩, ⟨proper, properRest⟩, awaits => by
      rw [Stmt.declaredIn_cons] at awaits
      have here := findings_stmt inFunction settled stmt ordered proper
        ((awaits.mono (List.subset_append_left _ _)).dropping fun declared given place among =>
          Nat.le_of_lt (behind declared given place among))
      have further := findings_stmts inFunction (settled_scopesAfter settled stmt) rest others
        properRest ((awaits.mono (List.subset_append_right _ _)).behind proper before)
      rw [visitStmts, sitesOfAll, List.map_append, List.map_append, here, further]

end

end Resolution

namespace Parser

/-- The program of a text is that of its lexemes. -/
theorem parse_program (text : String) :
    (parse text).program = (parseLexemes text.utf8ByteSize (lexemesOf text) []).program := by
  rw [parse_parts]

/-- The statements of every text are in order, and those under an `if` or a loop declare nothing. -/
theorem parse_ordered (text : String) :
    Stmt.OrderedAll (parse text).program ∧ Stmt.ProperAll (parse text).program := by
  rw [parse_program]
  exact parseLexemes_ordered (lexemesOf_inOrder text) _

/-- The occurrences in every text have different numbers. -/
theorem parse_distinct (text : String) : (Stmt.idsAll (parse text).program).Nodup := by
  rw [parse_program]
  exact parseLexemes_distinct _ _ _

end Parser

namespace Resolution

/-- A resolution of a text finds at its sites what the declarations around them say. -/
theorem findings_parse (text : String) :
    (visitProgram (parse text).program).map Visit.finding =
      (sitesOfProgram (parse text).program).map Site.finding := by
  obtain ⟨ordered, proper⟩ := Parser.parse_ordered text
  exact findings_stmts false (List.forall_mem_nil _) _ ordered proper trivial

/-- Visits and sites with the same findings have the same occurrences. -/
theorem findings_targets {visits : List Visit} {sites : List Site}
    (same : visits.map Visit.finding = sites.map Site.finding) :
    visits.filterMap Visit.target? = sites.filterMap Site.target? := by
  have targets := congrArg (List.filterMap Finding.target?) same
  rwa [List.filterMap_map, List.filterMap_map] at targets

/-- Visits and sites with the same findings have the same distances. -/
theorem findings_records {visits : List Visit} {sites : List Site}
    (same : visits.map Visit.finding = sites.map Site.finding) :
    visits.filterMap Visit.record? = sites.filterMap Site.record? := by
  have records := congrArg (List.filterMap Finding.record?) same
  rwa [List.filterMap_map, List.filterMap_map] at records

/-- Visits and sites with the same findings have the same errors. -/
theorem findings_errors {visits : List Visit} {sites : List Site}
    (same : visits.map Visit.finding = sites.map Site.finding) :
    visits.filterMap Visit.error? = sites.filterMap Site.error? := by
  have errors := congrArg (List.filterMap Finding.error?) same
  rwa [List.filterMap_map, List.filterMap_map] at errors

/-- The numbers of visits are those of the visited occurrences. -/
theorem idsOf_eq (visits : List Visit) :
    idsOf visits = (visits.filterMap Visit.target?).map Occurrence.id := by
  rw [idsOf, List.map_filterMap]
  refine congrArg (List.filterMap · visits) (funext fun visit => ?_)
  cases visit <;> rfl

/-- The numbers of the visits of a text are those of its occurrences. -/
theorem idsOf_parse (text : String) :
    (idsOf (visitProgram (parse text).program)).Perm (Stmt.idsAll (parse text).program) := by
  rw [idsOf_eq, findings_targets (findings_parse text), Stmt.idsAll_eq]
  exact (targets_sitesOfAll _).map _

/-- An occurrence refers to the scope with a number when no scope further inwards shows it. -/
structure RefersTo (around : List (List Name)) (initialized : Option String) (target : Occurrence)
    (number : Nat) : Prop where
  shown : Site.finds around initialized target number = true
  innermost : ∀ nearer < number, Site.finds around initialized target nearer = false

/-- The distance of a site counts the scopes up to the one that it refers to. -/
theorem Site.distance?_eq_some {around : List (List Name)} {initialized : Option String}
    {target : Occurrence} {number : Nat} :
    distance? around initialized target = some number ↔
      RefersTo around initialized target number := by
  rw [distance?, List.find?_range_eq_some]
  constructor
  · rintro ⟨shown, -, before⟩
    exact ⟨shown, fun nearer less => Bool.eq_false_iff.2 fun found => by
      simpa [found] using before nearer less⟩
  · rintro ⟨shown, innermost⟩
    refine ⟨shown, List.mem_range.2 (Nat.lt_of_not_le fun beyond => ?_), fun nearer less => ?_⟩
    · simp [finds, List.getElem?_eq_none beyond] at shown
    · simp [innermost nearer less]

/-- The table of a text has for an occurrence what its site says. -/
theorem table_of_site {text : String} {target : Occurrence} {around : List (List Name)}
    {initialized : Option String}
    (among : .occurrence target around initialized ∈ sitesOfProgram (parse text).program) :
    (resolve (parse text).program).table[target.id]? = Site.distance? around initialized target := by
  have found := List.mem_map_of_mem (f := Site.finding) among
  rw [← findings_parse] at found
  obtain ⟨visit, visited, same⟩ := List.mem_map.1 found
  have distinct := (idsOf_parse text).nodup_iff.2 (Parser.parse_distinct text)
  cases visit with
  | declaration | giveBack => cases congrArg Finding.target? same
  | occurrence other scopes =>
      have target_eq : other = target := Option.some.inj (congrArg Finding.target? same)
      subst target_eq
      rw [table_agrees distinct visited]
      have record := congrArg Finding.record? same
      exact Option.map_injective (fun _ _ same => congrArg Prod.snd same) record

/-- The distance of every occurrence is the number of the innermost scope that shows its name. -/
theorem resolve_distances (text : String) :
    let program := (parse text).program
    let table := (resolve program).table
    ((sitesOfProgram program).filterMap Site.target?).Perm (Stmt.targetsAll program) ∧
      (∀ target around initialized,
        .occurrence target around initialized ∈ sitesOfProgram program →
          ∀ number, table[target.id]? = some number ↔ RefersTo around initialized target number) ∧
      ∀ id, (∀ target ∈ Stmt.targetsAll program, target.id ≠ id) → table[id]? = none := by
  intro program table
  refine ⟨targets_sitesOfAll program, fun target around initialized among number => ?_,
    fun id other => ?_⟩
  · have held : table[target.id]? = Site.distance? around initialized target := table_of_site among
    rw [held, Site.distance?_eq_some]
  · rw [show table = Distances.merge ∅ (resolve program).distances from rfl, merge_of_notMem]
    · rfl
    intro entry found same
    rw [resolve_eq] at found
    have visited := (idsOf_parse text).subset (entry_mem_idsOf found)
    rw [Stmt.idsAll_eq] at visited
    obtain ⟨target, given, id_eq⟩ := List.mem_map.1 visited
    exact other target given (id_eq.trans same)

/-- The errors of a resolution are those of its sites, in the order of the walk, and they do not
keep it from finding the distances. -/
theorem resolve_errors (text : String) :
    let program := (parse text).program
    (resolve program).errors = (sitesOfProgram program).filterMap Site.error? ∧
      (resolve program).distances = (sitesOfProgram program).filterMap Site.record? := by
  intro program
  rw [resolve_eq]
  exact ⟨findings_errors (findings_parse text), findings_records (findings_parse text)⟩

end Resolution

end Lox
