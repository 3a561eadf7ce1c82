import Lox.Proofs.Lexical.World
import Lox.Proofs.Renaming.Agreement

namespace Lox.Resolution

open Evaluation (Settled settled_nil settled_introduced)

/-- Visits match when they find the same distance, and the second one finds no error if the first
one finds none. -/
structure Matches (visit other : Visit) : Prop where
  record : other.record? = visit.record?
  clean : visit.error? = none → other.error? = none

section
variable (new : Renaming)

/-- An expression sees the same under the scopes of both programs. -/
structure Shows (seen : Seen) (scopes others : List Scope) : Prop where
  distances : new.Agree seen (distanceIn? scopes) (distanceIn? others)
  pending : ∀ name, name ≠ new.name → initializing others (new.image seen name) = true →
    initializing scopes name = true

/-- A statement of both programs stands under scopes that have the same distances. What their
innermost scopes declare is the same apart from the new name. -/
inductive Stands : View → List Scope → List Scope → Prop
  | top : Stands .top [] []
  | inner {seen : Seen} {scope other : Scope} {outer rest : List Scope}
      (settled : ∀ inner ∈ scope :: outer, Settled inner)
      (also : ∀ inner ∈ other :: rest, Settled inner)
      (distances : new.Agree seen (distanceIn? (scope :: outer)) (distanceIn? (other :: rest)))
      (declared : ∀ name, name ≠ new.name → other.binds name = true → scope.binds name = true)
      (taken : other.binds new.name = true → scope.binds new.declared.item = true) :
      Stands (.inner seen) (scope :: outer) (other :: rest)

end

section
variable {new : Renaming} {seen : Seen} {view : View} {scopes others : List Scope}

/-- A renamed occurrence is visited with the same distance. -/
theorem Shows.occurrence {target : Occurrence} (alike : Shows new seen scopes others)
    (fits : new.Fits (.refer seen target)) :
    Matches (.occurrence target scopes) (.occurrence (new.occurrence target) others) := by
  have distance : distanceIn? others (new.occurrence target).name =
      distanceIn? scopes target.name := by
    rw [Renaming.occurrence, fits.refer]
    exact alike.distances.same target.name fits.refer_fresh
  refine ⟨by simp only [Visit.record?, distance]; rfl, fun clean => ?_⟩
  simp only [Visit.error?, distance] at clean ⊢
  split at clean
  next => cases clean
  next fine =>
    refine if_neg fun wrong => fine ?_
    obtain ⟨pending, none⟩ := Bool.and_eq_true_iff.1 wrong
    rw [Renaming.occurrence, fits.refer] at pending
    exact Bool.and_eq_true_iff.2 ⟨alike.pending target.name fits.refer_fresh pending, none⟩

mutual

/-- The visits of a renamed expression match those of the expression. -/
theorem visitExpr_renamed (alike : Shows new seen scopes others) : ∀ expr,
    (∀ mention ∈ mentionsExpr seen expr, new.Fits mention) →
      List.Forall₂ Matches (visitExpr scopes expr) (visitExpr others (new.expr expr))
  | .literal _ _, _ => .nil
  | .variable target, fits => .cons (alike.occurrence (fits _ List.mem_cons_self)) .nil
  | .assign _ target value, fits => by
      obtain ⟨here, fits⟩ := List.forall_mem_cons.1 fits
      exact List.rel_append (visitExpr_renamed alike value fits)
        (.cons (alike.occurrence here) .nil)
  | .group _ inner, fits => visitExpr_renamed alike inner fits
  | .unary _ _ operand, fits => visitExpr_renamed alike operand fits
  | .binary _ _ left right, fits | .logical _ _ left right, fits => by
      obtain ⟨first, second⟩ := List.forall_mem_append.1 fits
      exact List.rel_append (visitExpr_renamed alike left first)
        (visitExpr_renamed alike right second)
  | .call _ _ callee given, fits => by
      obtain ⟨first, second⟩ := List.forall_mem_append.1 fits
      exact List.rel_append (visitExpr_renamed alike callee first)
        (visitExprs_renamed alike given second)

theorem visitExprs_renamed (alike : Shows new seen scopes others) : ∀ exprs,
    (∀ mention ∈ mentionsExprs seen exprs, new.Fits mention) →
      List.Forall₂ Matches (visitExprs scopes exprs) (visitExprs others (new.exprs exprs))
  | [], _ => .nil
  | expr :: rest, fits => by
      obtain ⟨first, second⟩ := List.forall_mem_append.1 fits
      exact List.rel_append (visitExpr_renamed alike expr first)
        (visitExprs_renamed alike rest second)

end

theorem visitOption_renamed (alike : Shows new seen scopes others) (given : Option Expr)
    (fits : ∀ mention ∈ mentionsOption seen given, new.Fits mention) :
    List.Forall₂ Matches (visitOption scopes given) (visitOption others (given.map new.expr)) := by
  cases given with
  | none => exact .nil
  | some expr => exact visitExpr_renamed alike expr fits

namespace Stands

/-- Scopes that stand for two views show the same declarations. -/
theorem shows (stands : Stands new view scopes others) : Shows new view.seen scopes others := by
  cases stands with
  | top => exact ⟨.nothing _, fun _ _ => nofun⟩
  | inner settled also distances =>
      refine ⟨distances, fun name _ pending => ?_⟩
      cases (initializing_of_settled also _).symm.trans pending

section
variable {what : Declares} {name : Name} (stands : Stands new view scopes others)
  (fits : new.Fits (.declaration what name view.isInner))
include stands fits

/-- A name that is new in its scope becomes one that is new in the other scope. -/
theorem fresh (fresh : declared scopes name.item = false) :
    declared others (new.located name).item = false := by
  cases stands with
  | top => rfl
  | inner settled also distances declared taken =>
      refine Bool.eq_false_iff.2 fun bound => Bool.eq_false_iff.1 fresh ?_
      change Bindings.binds _ (new.rename name.span name.item) = true at bound
      rw [fits.rename_local] at bound
      split at bound
      next here => exact (fits.named here).symm ▸ taken bound
      next => exact declared _ fits.fresh bound

theorem declaration :
    Matches (.declaration name scopes) (.declaration (new.located name) others) :=
  ⟨rfl, fun clean =>
    Visit.error?_declaration.2 (stands.fresh fits (Visit.error?_declaration.1 clean))⟩

/-- An initializer sees the same under both scopes. -/
theorem pending (fresh' : declared scopes name.item = false) :
    Shows new view.seen (put scopes name.item false)
      (put others (new.located name).item false) := by
  have also' := stands.fresh fits fresh'
  cases stands with
  | top => exact ⟨.nothing _, fun _ _ => nofun⟩
  | inner settled also distances =>
      refine ⟨⟨distances.named, fun query found => ?_, fun query used => ?_⟩,
        fun query used pending => ?_⟩
      · rw [distanceIn?_pending settled fresh']
        exact distances.bound query found
      · rw [distanceIn?_pending settled fresh', distanceIn?_pending also also']
        exact distances.same query used
      · simp only [initializing, put, Bindings.value?_put, decide_eq_true_eq] at pending ⊢
        split at pending
        next same =>
          have same : name.item = query := by
            by_contra other
            exact distances.rename_ne fits other used same
          rw [if_pos same]
        next => exact absurd pending (also _ List.mem_cons_self _)

/-- Behind a declaration both scopes have the same distances again. -/
theorem introduce :
    Stands new (view.extend name) (introduced scopes name.item)
      (introduced others (new.located name).item) := by
  cases stands with
  | top => exact .top
  | inner settled also distances declared taken =>
      refine .inner (settled_introduced settled _) (settled_introduced also _)
        (distances.extend fits (distanceIn?_introduced settled _) (distanceIn?_introduced also _))
        ?_ ?_
      · intro query used bound
        simp only [Bindings.binds_put, Bool.or_eq_true, decide_eq_true_eq] at bound ⊢
        rcases bound with renamed | renamed | bound
        · exact .inl (fits.item_eq renamed used)
        · exact .inl (fits.item_eq renamed used)
        · exact .inr (.inr (declared query used bound))
      · intro bound
        simp only [Bindings.binds_put, Bool.or_eq_true, decide_eq_true_eq] at bound ⊢
        rcases bound with renamed | renamed | bound
        · exact .inl (fits.declared_eq renamed)
        · exact .inl (fits.declared_eq renamed)
        · exact .inr (.inr (taken bound))

end

/-- A new scope is the same for both programs. -/
theorem open_ (stands : Stands new view scopes others) :
    Stands new (.inner view.seen) ([] :: scopes) ([] :: others) := by
  cases stands with
  | top =>
      have settled : ∀ inner ∈ ([[]] : List Scope), Settled inner :=
        List.forall_mem_singleton.2 settled_nil
      exact .inner settled settled (.nothing _) (fun _ _ => id) nofun
  | inner settled also distances =>
      refine .inner (List.forall_mem_cons.2 ⟨settled_nil, settled⟩)
        (List.forall_mem_cons.2 ⟨settled_nil, also⟩)
        ⟨distances.named, fun query found => ?_, fun query used => ?_⟩ (fun _ _ => id) nofun
      · rw [distanceIn?_open settled, Ne, Option.map_eq_none_iff]
        exact distances.bound query found
      · rw [distanceIn?_open settled, distanceIn?_open also]
        exact congrArg (Option.map (· + 1)) (distances.same query used)

end Stands

/-- The parameters of a function are declared alike. -/
theorem parameters_renamed (parameters : List Name)
    (stands : Stands new (.inner seen) scopes others)
    (fits : ∀ mention ∈ mentionsParameters parameters, new.Fits mention) :
    List.Forall₂ Matches (visitParameters scopes parameters)
        (visitParameters others (parameters.map new.located)) ∧
      Stands new (.within seen parameters)
        ((parameters.map Located.item).foldl introduced scopes)
        (((parameters.map new.located).map Located.item).foldl introduced others) := by
  induction parameters generalizing seen scopes others with
  | nil => exact ⟨.nil, stands⟩
  | cons name rest ih =>
      obtain ⟨here, fits⟩ := List.forall_mem_cons.1 fits
      obtain ⟨visits, behind⟩ := ih (stands.introduce here) fits
      exact ⟨.cons (stands.declaration here) visits, behind⟩

mutual

/-- The visits of a renamed statement match those of the statement. -/
theorem visitStmt_renamed {inFunction : Bool} : ∀ (stmt : Stmt) {view : View}
    {scopes others : List Scope}, Stands new view scopes others → stmt.Proper →
    (∀ mention ∈ mentionsStmt view stmt, new.Fits mention) →
    (∀ visit ∈ visitStmt scopes inFunction stmt, visit.error? = none) →
      List.Forall₂ Matches (visitStmt scopes inFunction stmt)
          (visitStmt others inFunction (new.stmt stmt)) ∧
        Stands new (view.after stmt) (scopesAfter scopes stmt) (scopesAfter others (new.stmt stmt))
  | .expression _ value, _, _, _, stands, _, fits, _ | .print _ value, _, _, _, stands, _, fits, _ =>
      ⟨visitExpr_renamed stands.shows value fits, stands⟩
  | .variable _ name initializer, _, _, _, stands, _, fits, clean => by
      obtain ⟨here, fits⟩ := List.forall_mem_cons.1 fits
      have fresh := Visit.error?_declaration.1 (clean _ List.mem_cons_self)
      exact ⟨.cons (stands.declaration here)
        (visitOption_renamed (stands.pending here fresh) initializer fits), stands.introduce here⟩
  | .function _ name parameters body, _, _, _, stands, proper, fits, clean => by
      obtain ⟨here, fits⟩ := List.forall_mem_cons.1 fits
      obtain ⟨outside, inside⟩ := List.forall_mem_append.1 fits
      obtain ⟨fresh, clean⟩ := List.forall_mem_cons.1 clean
      obtain ⟨-, clean⟩ := List.forall_mem_append.1 clean
      have behind := stands.introduce here
      obtain ⟨given, within⟩ := parameters_renamed parameters behind.open_ outside
      have visits := visitStmts_renamed body within proper inside clean
      exact ⟨.cons (stands.declaration here) (List.rel_append given visits), behind⟩
  | .block _ body, _, _, _, stands, proper, fits, clean =>
      ⟨visitStmts_renamed body stands.open_ proper fits clean, stands⟩
  | .branch _ condition consequent none, view, _, _, stands, ⟨silent, proper⟩, fits, clean => by
      obtain ⟨tested, fits⟩ := List.forall_mem_append.1 fits
      obtain ⟨-, clean⟩ := List.forall_mem_append.1 clean
      obtain ⟨visits, behind⟩ := visitStmt_renamed consequent stands proper fits clean
      rw [view.after_of_silent silent] at behind
      exact ⟨List.rel_append (visitExpr_renamed stands.shows condition tested) visits, behind⟩
  | .branch _ condition consequent (some alternative), view, _, _, stands,
      ⟨⟨silent, proper⟩, other, properOther⟩, fits, clean => by
      obtain ⟨tested, fits⟩ := List.forall_mem_append.1 fits
      obtain ⟨fits, refused⟩ := List.forall_mem_append.1 fits
      obtain ⟨-, clean⟩ := List.forall_mem_append.1 clean
      obtain ⟨clean, cleanOther⟩ := List.forall_mem_append.1 clean
      obtain ⟨visits, behind⟩ := visitStmt_renamed consequent stands proper fits clean
      rw [view.after_of_silent silent] at behind
      obtain ⟨more, further⟩ := visitStmt_renamed alternative behind properOther refused cleanOther
      rw [view.after_of_silent other] at further
      exact ⟨List.rel_append (visitExpr_renamed stands.shows condition tested)
        (List.rel_append visits more), further⟩
  | .loop _ condition body, view, _, _, stands, ⟨silent, proper⟩, fits, clean => by
      obtain ⟨tested, fits⟩ := List.forall_mem_append.1 fits
      obtain ⟨-, clean⟩ := List.forall_mem_append.1 clean
      obtain ⟨visits, behind⟩ := visitStmt_renamed body stands proper fits clean
      rw [view.after_of_silent silent] at behind
      exact ⟨List.rel_append (visitExpr_renamed stands.shows condition tested) visits, behind⟩
  | .giveBack _ _ value, _, _, _, stands, _, fits, _ =>
      ⟨.cons ⟨rfl, id⟩ (visitOption_renamed stands.shows value fits), stands⟩

/-- The visits of renamed statements find the same distances, and no errors. -/
theorem visitStmts_renamed {inFunction : Bool} : ∀ (stmts : List Stmt) {view : View}
    {scopes others : List Scope}, Stands new view scopes others → Stmt.ProperAll stmts →
    (∀ mention ∈ mentionsStmts view stmts, new.Fits mention) →
    (∀ visit ∈ visitStmts scopes inFunction stmts, visit.error? = none) →
      List.Forall₂ Matches (visitStmts scopes inFunction stmts)
        (visitStmts others inFunction (new.stmts stmts))
  | [], _, _, _, _, _, _, _ => .nil
  | stmt :: rest, _, _, _, stands, ⟨proper, properRest⟩, fits, clean => by
      obtain ⟨first, second⟩ := List.forall_mem_append.1 fits
      obtain ⟨cleanFirst, cleanRest⟩ := List.forall_mem_append.1 clean
      obtain ⟨visits, behind⟩ := visitStmt_renamed stmt stands proper first cleanFirst
      exact List.rel_append visits (visitStmts_renamed rest behind properRest second cleanRest)

end

end

/-- Visits that match find the same distances, and no errors if there are none. -/
theorem matches_found {visits others : List Visit} (matching : List.Forall₂ Matches visits others)
    (clean : ∀ visit ∈ visits, visit.error? = none) :
    others.filterMap Visit.record? = visits.filterMap Visit.record? ∧
      ∀ visit ∈ others, visit.error? = none := by
  induction matching with
  | nil => exact ⟨rfl, nofun⟩
  | cons first _ ih =>
      obtain ⟨fine, clean⟩ := List.forall_mem_cons.1 clean
      obtain ⟨records, errors⟩ := ih clean
      refine ⟨?_, List.forall_mem_cons.2 ⟨first.clean fine, errors⟩⟩
      rw [List.filterMap_cons, List.filterMap_cons, first.record, records]

/-- A program without errors that is renamed has the same distances, and no errors. -/
theorem resolve_renamed {new : Renaming} {program : Program} (proper : Stmt.ProperAll program)
    (fits : ∀ mention ∈ mentionsOf program, new.Fits mention)
    (resolved : (resolve program).errors = []) :
    resolve (new.stmts program) = resolve program := by
  rw [resolve_eq] at resolved
  have clean := List.filterMap_eq_nil_iff.1 resolved
  have matching := visitStmts_renamed program .top proper fits clean
  obtain ⟨records, errors⟩ := matches_found matching clean
  rw [resolve_eq, resolve_eq]
  exact congrArg₂ Resolution.mk records ((List.filterMap_eq_nil_iff.2 errors).trans resolved.symm)

end Lox.Resolution
