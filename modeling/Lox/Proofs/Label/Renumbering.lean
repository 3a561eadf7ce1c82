import Mathlib.Logic.Equiv.Basic
import Lox.Proofs.Label.Erasing

namespace Lox

namespace Relabeling

/-- The relabeling that takes the spans and the numbers away. -/
def unlabeled : Relabeling := ⟨fun _ => .empty 0, fun _ => 0⟩

/-- The relabeling that takes the spans away and gives new numbers. -/
def renumbered (ids : Nat → Nat) : Relabeling := ⟨fun _ => .empty 0, ids⟩

section
variable (relabeling : Relabeling)

mutual

/-- An expression with other labels has the other numbers. -/
theorem expr_ids : ∀ expr : Expr, (relabeling.expr expr).ids = expr.ids.map relabeling.ids
  | .literal _ _ | .variable _ => rfl
  | .assign _ _ value => congrArg (List.cons _) (expr_ids value)
  | .group _ inner => expr_ids inner
  | .unary _ _ operand => expr_ids operand
  | .binary _ _ left right | .logical _ _ left right => by
      simp only [Relabeling.expr, Expr.ids, expr_ids left, expr_ids right, List.map_append]
  | .call _ _ callee given => by
      simp only [Relabeling.expr, Expr.ids, expr_ids callee, exprs_ids given, List.map_append]

/-- Expressions with other labels have the other numbers. -/
theorem exprs_ids : ∀ exprs : List Expr,
    Expr.idsAll (relabeling.exprs exprs) = (Expr.idsAll exprs).map relabeling.ids
  | [] => rfl
  | expr :: rest => by
      simp only [Relabeling.exprs, Expr.idsAll, expr_ids expr, exprs_ids rest, List.map_append]

end

@[simp] theorem exprs_length (given : List Expr) :
    (relabeling.exprs given).length = given.length := by
  induction given with
  | nil => rfl
  | cons expr rest ih => exact congrArg (· + 1) ih

/-- An expression that may be missing has the other numbers. -/
theorem option_ids (given : Option Expr) :
    ((given.map relabeling.expr).map Expr.ids).getD [] =
      ((given.map Expr.ids).getD []).map relabeling.ids := by
  cases given with
  | none => rfl
  | some given => exact expr_ids relabeling given

mutual

/-- A statement with other labels has the other numbers. -/
theorem stmt_ids : ∀ stmt : Stmt, (relabeling.stmt stmt).ids = stmt.ids.map relabeling.ids
  | .expression _ value | .print _ value => expr_ids relabeling value
  | .variable _ _ initializer => option_ids relabeling initializer
  | .function _ _ _ body => stmts_ids body
  | .block _ body => stmts_ids body
  | .branch _ condition consequent none => by
      simp only [Relabeling.stmt, Stmt.ids, expr_ids, stmt_ids consequent, List.map_append]
  | .branch _ condition consequent (some alternative) => by
      simp only [Relabeling.stmt, Stmt.ids, expr_ids, stmt_ids consequent, stmt_ids alternative,
        List.map_append]
  | .loop _ condition body => by
      simp only [Relabeling.stmt, Stmt.ids, expr_ids, stmt_ids body, List.map_append]
  | .giveBack _ _ value => option_ids relabeling value

/-- Statements with other labels have the other numbers. -/
theorem stmts_ids : ∀ stmts : List Stmt,
    Stmt.idsAll (relabeling.stmts stmts) = (Stmt.idsAll stmts).map relabeling.ids
  | [] => rfl
  | stmt :: rest => by
      simp only [Relabeling.stmts, Stmt.idsAll, stmt_ids stmt, stmts_ids rest, List.map_append]

end

end

/-- Trees that are the same apart from their labels have as many occurrences. -/
theorem expr_ids_length {first second : Expr}
    (same : unlabeled.expr second = unlabeled.expr first) :
    first.ids.length = second.ids.length := by
  have counts := congrArg (fun tree => tree.ids.length) same
  simpa only [expr_ids, List.length_map] using counts.symm

/-- Statements that differ in labels only have as many occurrences. -/
theorem stmt_ids_length {first second : Stmt}
    (same : unlabeled.stmt second = unlabeled.stmt first) :
    first.ids.length = second.ids.length := by
  have counts := congrArg (fun tree => tree.ids.length) same
  simpa only [stmt_ids, List.length_map] using counts.symm

/-- Lists of statements that differ in labels only have as many occurrences. -/
theorem stmts_ids_length {first second : List Stmt}
    (same : unlabeled.stmts second = unlabeled.stmts first) :
    (Stmt.idsAll first).length = (Stmt.idsAll second).length := by
  have counts := congrArg (fun trees => (Stmt.idsAll trees).length) same
  simpa only [stmts_ids, List.length_map] using counts.symm

section
variable {ids : Nat → Nat}

/-- Numbers that are renumbered as a whole are so in their parts. -/
theorem split_ids {first second others rest : List Nat}
    (numbers : (first ++ second).map ids = others ++ rest) (counts : first.length = others.length) :
    first.map ids = others ∧ second.map ids = rest :=
  List.append_inj (List.map_append ▸ numbers) (by rwa [List.length_map])

/-- Occurrences that differ in labels only differ by their numbers apart from spans. -/
theorem occurrence_renumbered {first second : Occurrence}
    (same : unlabeled.occurrence second = unlabeled.occurrence first)
    (number : ids first.id = second.id) :
    unspanned.occurrence second = (renumbered ids).occurrence first := by
  obtain ⟨-, name, -⟩ := Occurrence.mk.inj same
  simp only [occurrence, unspanned, renumbered, name, number, id]

mutual

/-- Expressions that are the same apart from their labels differ by a renumbering. -/
theorem expr_renumbered : ∀ {first second : Expr}, unlabeled.expr second = unlabeled.expr first →
    first.ids.map ids = second.ids → unspanned.expr second = (renumbered ids).expr first
  | .literal _ _, second, same, _ => by
      cases second with
      | literal => exact same
      | _ => cases same
  | .variable _, second, same, numbers => by
      cases second with
      | «variable» =>
          injection same with target
          injection numbers with number
          exact congrArg Expr.variable (occurrence_renumbered target number)
      | _ => cases same
  | .assign _ _ _, second, same, numbers => by
      cases second with
      | assign =>
          injection same with _ target value
          injection numbers with number others
          exact congrArg₂ (Expr.assign _) (occurrence_renumbered target number)
            (expr_renumbered value others)
      | _ => cases same
  | .group _ _, second, same, numbers => by
      cases second with
      | group =>
          injection same with _ inner
          exact congrArg (Expr.group _) (expr_renumbered inner numbers)
      | _ => cases same
  | .unary _ _ _, second, same, numbers => by
      cases second with
      | unary =>
          injection same with _ op operand
          exact congrArg₂ (Expr.unary _) op (expr_renumbered operand numbers)
      | _ => cases same
  | .binary _ _ _ _, second, same, numbers => by
      cases second with
      | binary =>
          injection same with _ op left right
          obtain ⟨early, late⟩ := split_ids numbers (expr_ids_length left)
          exact (congrArg₂ (Expr.binary _ _) (expr_renumbered left early)
            (expr_renumbered right late)).trans (congrArg (Expr.binary _ · _ _) op)
      | _ => cases same
  | .logical _ _ _ _, second, same, numbers => by
      cases second with
      | logical =>
          injection same with _ op left right
          obtain ⟨early, late⟩ := split_ids numbers (expr_ids_length left)
          exact (congrArg₂ (Expr.logical _ _) (expr_renumbered left early)
            (expr_renumbered right late)).trans (congrArg (Expr.logical _ · _ _) op)
      | _ => cases same
  | .call _ _ _ _, second, same, numbers => by
      cases second with
      | call =>
          injection same with _ _ callee given
          obtain ⟨early, late⟩ := split_ids numbers (expr_ids_length callee)
          exact congrArg₂ (Expr.call _ _) (expr_renumbered callee early)
            (exprs_renumbered given late)
      | _ => cases same

/-- Expressions that differ in labels only differ by their numbers apart from spans. -/
theorem exprs_renumbered : ∀ {first second : List Expr},
    unlabeled.exprs second = unlabeled.exprs first →
      (Expr.idsAll first).map ids = Expr.idsAll second →
        unspanned.exprs second = (renumbered ids).exprs first
  | [], [], _, _ => rfl
  | _ :: _, _ :: _, same, numbers => by
      injection same with expr rest
      obtain ⟨early, late⟩ := split_ids numbers (expr_ids_length expr)
      exact congrArg₂ List.cons (expr_renumbered expr early) (exprs_renumbered rest late)

end

/-- Expressions that may be missing differ by their numbers apart from spans. -/
theorem option_renumbered {first second : Option Expr}
    (same : second.map unlabeled.expr = first.map unlabeled.expr)
    (numbers : ((first.map Expr.ids).getD []).map ids = (second.map Expr.ids).getD []) :
    second.map unspanned.expr = first.map (renumbered ids).expr := by
  cases first with
  | none => rw [Option.map_eq_none_iff.1 same]; rfl
  | some first =>
      obtain ⟨second, rfl, shape⟩ := Option.map_eq_some_iff.1 same
      exact congrArg some (expr_renumbered shape numbers)

mutual

/-- Statements that are the same apart from their labels differ by a renumbering. -/
theorem stmt_renumbered : ∀ {first second : Stmt}, unlabeled.stmt second = unlabeled.stmt first →
    first.ids.map ids = second.ids → unspanned.stmt second = (renumbered ids).stmt first
  | .expression _ _, second, same, numbers => by
      cases second with
      | expression =>
          injection same with _ value
          exact congrArg (Stmt.expression _) (expr_renumbered value numbers)
      | _ => simp only [stmt, stmt_branch, reduceCtorEq] at same
  | .print _ _, second, same, numbers => by
      cases second with
      | print =>
          injection same with _ value
          exact congrArg (Stmt.print _) (expr_renumbered value numbers)
      | _ => simp only [stmt, stmt_branch, reduceCtorEq] at same
  | .variable _ _ _, second, same, numbers => by
      cases second with
      | «variable» =>
          injection same with _ name initializer
          exact congrArg₂ (Stmt.variable _) name (option_renumbered initializer numbers)
      | _ => simp only [stmt, stmt_branch, reduceCtorEq] at same
  | .function _ _ _ _, second, same, numbers => by
      cases second with
      | function =>
          injection same with _ name parameters body
          exact (congrArg (Stmt.function _ _ _) (stmts_renumbered body numbers)).trans
            (congrArg₂ (Stmt.function _ · · _) name parameters)
      | _ => simp only [stmt, stmt_branch, reduceCtorEq] at same
  | .block _ _, second, same, numbers => by
      cases second with
      | block =>
          injection same with _ body
          exact congrArg (Stmt.block _) (stmts_renumbered body numbers)
      | _ => simp only [stmt, stmt_branch, reduceCtorEq] at same
  | .branch _ _ _ alternative, second, same, numbers => by
      cases second with
      | branch _ _ _ other =>
          rw [stmt_branch, stmt_branch] at same ⊢
          injection same with _ condition consequent otherwise
          have tested := expr_ids_length condition
          have chosen := stmt_ids_length consequent
          cases alternative with
          | none =>
              obtain rfl := Option.map_eq_none_iff.1 otherwise
              obtain ⟨early, late⟩ := split_ids numbers tested
              exact congrArg₂ (Stmt.branch _ · · none) (expr_renumbered condition early)
                (stmt_renumbered consequent late)
          | some alternative =>
              obtain ⟨other, rfl, shape⟩ := Option.map_eq_some_iff.1 otherwise
              obtain ⟨early, rest⟩ := split_ids numbers tested
              obtain ⟨middle, late⟩ := split_ids rest chosen
              exact (congrArg₂ (Stmt.branch _ · · _) (expr_renumbered condition early)
                (stmt_renumbered consequent middle)).trans
                (congrArg (Stmt.branch _ _ _ <| some ·) (stmt_renumbered shape late))
      | _ => simp only [stmt, stmt_branch, reduceCtorEq] at same
  | .loop _ _ _, second, same, numbers => by
      cases second with
      | loop =>
          injection same with _ condition body
          obtain ⟨early, late⟩ := split_ids numbers (expr_ids_length condition)
          exact congrArg₂ (Stmt.loop _) (expr_renumbered condition early)
            (stmt_renumbered body late)
      | _ => simp only [stmt, stmt_branch, reduceCtorEq] at same
  | .giveBack _ _ _, second, same, numbers => by
      cases second with
      | giveBack =>
          injection same with _ _ value
          exact congrArg (Stmt.giveBack _ _) (option_renumbered value numbers)
      | _ => simp only [stmt, stmt_branch, reduceCtorEq] at same

/-- Statements that differ in labels only differ by their numbers apart from spans. -/
theorem stmts_renumbered : ∀ {first second : List Stmt},
    unlabeled.stmts second = unlabeled.stmts first →
      (Stmt.idsAll first).map ids = Stmt.idsAll second →
        unspanned.stmts second = (renumbered ids).stmts first
  | [], [], _, _ => rfl
  | _ :: _, _ :: _, same, numbers => by
      injection same with stmt rest
      obtain ⟨early, late⟩ := split_ids numbers (stmt_ids_length stmt)
      exact congrArg₂ List.cons (stmt_renumbered stmt early) (stmts_renumbered rest late)

end

end

/-- Lists of different numbers that have the same length differ by a renumbering. -/
theorem exists_renumbering : ∀ {first second : List Nat}, first.Nodup → second.Nodup →
    first.length = second.length → ∃ renumber : Equiv.Perm Nat, first.map renumber = second
  | [], [], _, _, _ => ⟨.refl Nat, rfl⟩
  | id :: rest, other :: others, different, also, same => by
      obtain ⟨absent, different⟩ := List.nodup_cons.1 different
      obtain ⟨missing, also⟩ := List.nodup_cons.1 also
      obtain ⟨renumber, maps⟩ := exists_renumbering different also (Nat.succ.inj same)
      -- The numbers of the rest stay as they are when the first one is put right.
      refine ⟨renumber.trans (.swap (renumber id) other), ?_⟩
      rw [List.map_cons, Equiv.trans_apply, Equiv.swap_apply_left, ← maps]
      congr 1
      refine List.map_congr_left fun inner given => Equiv.swap_apply_of_ne_of_ne ?_ ?_
      · exact renumber.injective.ne (ne_of_mem_of_not_mem given absent)
      · exact ne_of_mem_of_not_mem (maps ▸ List.mem_map_of_mem given) missing

/-- Programs of different occurrences that are the same apart from their labels differ by a
renumbering. -/
theorem exists_renumbered {first second : Program}
    (same : unlabeled.stmts second = unlabeled.stmts first) (different : (Stmt.idsAll first).Nodup)
    (also : (Stmt.idsAll second).Nodup) :
    ∃ renumber : Equiv.Perm Nat, unspanned.stmts second = (renumbered renumber).stmts first := by
  obtain ⟨renumber, maps⟩ := exists_renumbering different also (stmts_ids_length same)
  exact ⟨renumber, stmts_renumbered same maps⟩

end Relabeling

open Relabeling

section
variable {first second : Program} {renumber : Equiv.Perm Nat}

/-- A renumbering keeps the distances of the occurrences. -/
theorem resolve_renumbered
    (same : unspanned.stmts second = (renumbered renumber).stmts first) :
    (resolve second).distances =
      (resolve first).distances.map fun entry => (renumber entry.1, entry.2) := by
  have both := congrArg (fun program => (resolve program).distances) same
  simp only [resolve_relabel] at both
  exact (List.map_id _).symm.trans both

/-- The renumbered occurrence has the distance of the occurrence. -/
theorem table_renumbered
    (distances : (resolve second).distances =
      (resolve first).distances.map fun entry => (renumber entry.1, entry.2)) (id : Nat) :
    (resolve second).table[renumber id]? = (resolve first).table[id]? := by
  have different : Function.Injective (renumbered renumber).ids := renumber.injective
  rw [Resolution.table, distances]
  exact merge_relabel different (fun _ => rfl) id

/-- Programs that differ by a renumbering run alike. -/
theorem Run.Alike.of_renumbered
    (same : unspanned.stmts second = (renumbered renumber).stmts first) (fuel : Nat)
    (clock : Nat → Float) (output : Sink) :
    Alike (.of fuel clock output first) (.of fuel clock output second) := by
  have different : Function.Injective (renumbered renumber).ids := renumber.injective
  have start := of_relabeling different fuel clock output first
  rw [← same] at start
  exact start.trans (of_spans rfl fuel clock output second).symm

end

end Lox
