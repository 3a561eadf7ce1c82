import Mathlib.Data.List.Nodup
import Mathlib.Data.List.Pairwise
import Lox.Proofs.Layout.Nodes
import Lox.Proofs.Scope.Findings
import Lox.Proofs.Syntax.Assignments
import Lox.Proofs.Syntax.Counting
import Lox.Proofs.Syntax.Termination

namespace Lox

def Lexeme.isName (lexeme : Lexeme) : Bool :=
  match lexeme.token with
  | .identifier _ => true
  | .symbol _ | .string _ | .number _ | .invalid => false

/-- The occurrence that a node is by itself, as a read or as the target of an assignment. -/
def Node.target? : Node → Option Occurrence
  | .expr (.variable target) | .expr (.assign _ target _) => some target
  | _ => none

mutual

/-- The occurrences in an expression are those at its nodes. -/
theorem Expr.targets_nodes : ∀ expr : Expr, expr.nodes.filterMap Node.target? = expr.targets
  | .literal _ _ | .variable _ => rfl
  | .assign _ target value => congrArg (target :: ·) value.targets_nodes
  | .group _ inner => inner.targets_nodes
  | .unary _ _ operand => operand.targets_nodes
  | .binary _ _ left right | .logical _ _ left right => by
      rw [Expr.nodes, List.filterMap_cons_none rfl, List.filterMap_append, left.targets_nodes,
        right.targets_nodes, Expr.targets]
  | .call _ _ callee given => by
      rw [Expr.nodes, List.filterMap_cons_none rfl, List.filterMap_append, callee.targets_nodes,
        Expr.targetsAll_nodes given, Expr.targets]

/-- The occurrences in expressions are those of their nodes. -/
theorem Expr.targetsAll_nodes : ∀ exprs : List Expr,
    (Expr.nodesAll exprs).filterMap Node.target? = Expr.targetsAll exprs
  | [] => rfl
  | expr :: rest => by
      rw [Expr.nodesAll, List.filterMap_append, expr.targets_nodes, Expr.targetsAll_nodes rest,
        Expr.targetsAll]

end

theorem Expr.targetsOption_nodes (given : Option Expr) :
    (Expr.nodesOption given).filterMap Node.target? = Expr.targetsOption given := by
  cases given with
  | none => rfl
  | some value => exact value.targets_nodes

mutual

/-- The occurrences in a statement are those at its nodes. -/
theorem Stmt.targets_nodes : ∀ stmt : Stmt, stmt.nodes.filterMap Node.target? = stmt.targets
  | .expression _ value | .print _ value => value.targets_nodes
  | .variable _ _ initializer => Expr.targetsOption_nodes initializer
  | .function _ _ _ body | .block _ body => Stmt.targetsAll_nodes body
  | .branch _ condition consequent none => by
      rw [Stmt.nodes, List.filterMap_cons_none rfl, List.filterMap_append, condition.targets_nodes,
        consequent.targets_nodes, Stmt.targets]
  | .branch _ condition consequent (some alternative) => by
      rw [Stmt.nodes, List.filterMap_cons_none rfl, List.filterMap_append, List.filterMap_append,
        condition.targets_nodes, consequent.targets_nodes, alternative.targets_nodes, Stmt.targets]
  | .loop _ condition body => by
      rw [Stmt.nodes, List.filterMap_cons_none rfl, List.filterMap_append, condition.targets_nodes,
        body.targets_nodes, Stmt.targets]
  | .giveBack _ _ value => Expr.targetsOption_nodes value

/-- The occurrences in statements are those of their nodes. -/
theorem Stmt.targetsAll_nodes : ∀ stmts : List Stmt,
    (Stmt.nodesAll stmts).filterMap Node.target? = Stmt.targetsAll stmts
  | [] => rfl
  | stmt :: rest => by
      rw [Stmt.nodesAll, List.filterMap_append, stmt.targets_nodes, Stmt.targetsAll_nodes rest,
        Stmt.targetsAll]

end

namespace Parser

open Lox.Computation

/-- Only identifiers are read, each of them once and in the order of the lexemes. -/
theorem Path.read_sublist {eof : Nat} {first last : State} {read : List Lexeme}
    (path : Path eof first read last) : read.Sublist (first.rest.filter Lexeme.isName) := by
  induction path with
  | nil => exact List.nil_sublist _
  | cons step _ ih =>
      cases step with
      | take next =>
          rw [next]
          exact ih.trans ((List.sublist_cons_self _ _).filter _)
      | read next =>
          rw [next, List.filter_cons_of_pos rfl]
          exact ih.cons_cons _
      | report => exact ih
      | giveUp => exact ih.trans ((recover_suffix _).sublist.filter _)

/-- Different lexemes of a text have different spans. -/
theorem InOrder.spans_nodup {lexemes : List Lexeme} (order : InOrder lexemes) :
    (lexemes.map Lexeme.span).Nodup := by
  refine List.pairwise_map.2 (order.ordered.imp_of_mem fun {first second} given _ before same => ?_)
  have proper := order.proper first given
  rw [same] at before proper
  omega

/-- Nodes with the same number are the same, if numbers differ. -/
theorem nodes_of_id {stmts : List Stmt} (distinct : (Stmt.idsAll stmts).Nodup) {first second : Node}
    {target other : Occurrence} (given : first ∈ Stmt.nodesAll stmts)
    (also : second ∈ Stmt.nodesAll stmts) (left : first.target? = some target)
    (right : second.target? = some other) (same : target.id = other.id) : first = second := by
  rw [Stmt.idsAll_eq, ← Stmt.targetsAll_nodes, List.Nodup, List.pairwise_map,
    List.pairwise_filterMap] at distinct
  -- The numbers of two nodes differ in whichever order the nodes come.
  let apart (node after : Node) : Prop := ∀ one, node.target? = some one →
    ∀ two, after.target? = some two → one.id ≠ two.id
  have symmetric : Std.Symm apart :=
    ⟨fun _ _ different one left two right same => different two right one left same.symm⟩
  have distinct : (Stmt.nodesAll stmts).Pairwise apart := distinct
  by_contra different
  exact distinct.forall given also different target left other right same

/-- An expression that is an assignment was read as a variable up to its sign, with the number that it
has as an assignment. -/
theorem expression_reuses {eof fuel : Nat} {state last : State} {span : Span} {target : Occurrence}
    {value : Expr} (ended : expression eof (fuel + 1) state = .ok (.assign span target value) last) :
    ∃ read middle, chain eof fuel .or state = .ok (.variable target) middle ∧
      Path eof state read middle ∧ Identified state.nextId read target ∧
      middle.next? = some .equal ∧ expression eof fuel middle.advance = .ok value last := by
  obtain ⟨middle, chained, sign, assigned, -⟩ := expression_assigns ended
  obtain ⟨read, path, identified⟩ := ((expressionsWalk eof fuel).chain .or state).reaches chained
  exact ⟨read, middle, chained, path, identified target (List.mem_singleton_self _), sign, assigned⟩

/-- A declaration uses up a number for each identifier that it reads, found or not. -/
theorem declaration_usesUp {eof : Nat} {state last : State} {found : Option Stmt}
    (settles : Settles (declaration eof) state found last) :
    ∃ used, Path eof state used last ∧ last.nextId = state.nextId + used.length ∧
      ∀ target ∈ stmtTargets found, Identified state.nextId used target := by
  obtain ⟨fuel, settled⟩ := settles
  have walks := (statementsWalk eof fuel).declaration state
  obtain ⟨used, path, identified⟩ := walks.reaches (settled fuel (Nat.le_refl _))
  exact ⟨used, path, path.numbered, identified⟩

/-- The numbers of occurrences are below how many identifiers are read. -/
theorem ids_below {read : List Lexeme} {stmts : List Stmt}
    (identified : ∀ target ∈ Stmt.targetsAll stmts, Identified 0 read target) :
    ∀ id ∈ Stmt.idsAll stmts, id < read.length := by
  intro id given
  rw [Stmt.idsAll_eq] at given
  obtain ⟨target, found, rfl⟩ := List.mem_map.1 given
  exact Nat.lt_of_lt_of_eq (identified target found).within.2 (Nat.zero_add _)

/-- Different numbers stay different in a word that each of them fits in. -/
theorem words_nodup {ids : List Nat} (distinct : ids.Nodup)
    (fits : ∀ id ∈ ids, id < UInt32.size) : (ids.map UInt32.ofNat).Nodup := by
  refine distinct.map_on fun first given second also same => ?_
  rw [← UInt32.toNat_ofNat_of_lt' (fits first given), same,
    UInt32.toNat_ofNat_of_lt' (fits second also)]

/-- The number of an occurrence in a text is the place of its lexeme among the identifiers that are
read as expressions. -/
structure NumbersIdentify (text : String) (read : List Lexeme) : Prop where
  among : read.Sublist ((lexemesOf text).filter Lexeme.isName)
  apart : (read.map Lexeme.span).Nodup
  /-- There is a number for each of them. -/
  narrow : read.length < UInt32.size
  identified : ∀ target ∈ Stmt.targetsAll (parse text).program, Identified 0 read target
  below : ∀ id ∈ Stmt.idsAll (parse text).program, id < read.length
  distinct : (Stmt.idsAll (parse text).program).Nodup
  distinctWords : ((Stmt.idsAll (parse text).program).map UInt32.ofNat).Nodup
  /-- An assignment has the number of a read, which it takes the place of. -/
  reuses : ∀ {fuel state span target value last},
    expression text.utf8ByteSize (fuel + 1) state = .ok (.assign span target value) last →
    ∃ used middle, chain text.utf8ByteSize fuel .or state = .ok (.variable target) middle ∧
      Path text.utf8ByteSize state used middle ∧ Identified state.nextId used target ∧
      middle.next? = some .equal ∧
      expression text.utf8ByteSize fuel middle.advance = .ok value last
  replaced : ∀ {span target value other},
    .expr (.assign span target value) ∈ Stmt.nodesAll (parse text).program →
    .expr (.variable other) ∈ Stmt.nodesAll (parse text).program → other.id ≠ target.id
  /-- A declaration uses up the numbers of what it reads, found or not. -/
  usesUp : ∀ {state found last}, Settles (declaration text.utf8ByteSize) state found last →
    ∃ used, Path text.utf8ByteSize state used last ∧ last.nextId = state.nextId + used.length ∧
      ∀ target ∈ stmtTargets found, Identified state.nextId used target
  every : (parse text).errors = [] → (Stmt.idsAll (parse text).program).Perm
    (List.range (Stmt.targetsAll (parse text).program).length)

/-- Without an error the numbers are all those below the number of occurrences. -/
theorem idsAll_of_clean {text : String} (clean : (parse text).errors = []) :
    (Stmt.idsAll (parse text).program).Perm
      (List.range (Stmt.targetsAll (parse text).program).length) := by
  obtain ⟨-, next, form⟩ := forms_of_clean clean
  have counts := form.counts
  have length := counts.length
  rw [Nat.zero_add, Stmt.idsAll_eq, List.length_map] at length
  rw [length, List.range_eq_range']
  exact counts.every

/-- In a text with fewer identifiers than there are numbers, numbers identify the occurrences of
variables, whether the text has errors or not. -/
theorem parse_identifiesOccurrences (text : String)
    (few : ((lexemesOf text).filter Lexeme.isName).length < UInt32.size) :
    ∃ read last, Path text.utf8ByteSize (startOf text) read last ∧
      Settles (program text.utf8ByteSize) (startOf text) (parse text).program last ∧
      last.nextId = read.length ∧ NumbersIdentify text read := by
  obtain ⟨stmts, last, ended, same, -⟩ := parse_reads text
  obtain ⟨read, path, identified⟩ := (program_walks _ _ _).reaches ended
  have program : (parse text).program = stmts := congrArg Parse.program same
  have identified : ∀ target ∈ Stmt.targetsAll (parse text).program, Identified 0 read target :=
    program ▸ identified
  have total : last.nextId = read.length := path.numbered.trans (Nat.zero_add _)
  have among : read.Sublist ((lexemesOf text).filter Lexeme.isName) := path.read_sublist
  have spans : (read.map Lexeme.span).Sublist ((lexemesOf text).map Lexeme.span) :=
    (among.trans List.filter_sublist).map _
  have narrow : read.length < UInt32.size := Nat.lt_of_le_of_lt among.length_le few
  have distinct := parse_distinct text
  have below := ids_below identified
  exact ⟨read, last, path, program ▸ program_settles ended, total, {
    among, narrow, identified, below, distinct
    apart := (InOrder.spans_nodup (lexemesOf_inOrder text)).sublist spans
    distinctWords := words_nodup distinct fun id given => Nat.lt_trans (below id given) narrow
    reuses := expression_reuses
    replaced := fun assigned stays same => nomatch nodes_of_id distinct stays assigned rfl rfl same
    usesUp := declaration_usesUp
    every := idsAll_of_clean }⟩

/-- The second statement is left out and uses up a number, and the third one leaves out a value. -/
theorem parse_identifiesOccurrences_dropped :
    let text := "a = b; c d; e = (f) = g; h;"
    ((lexemesOf text).filter Lexeme.isName).length < UInt32.size ∧
      Stmt.idsAll (parse text).program = [0, 1, 3, 4, 6] ∧
      ∃ read last, Path text.utf8ByteSize (startOf text) read last ∧
        Settles (program text.utf8ByteSize) (startOf text) (parse text).program last ∧
        last.nextId = read.length ∧ NumbersIdentify text read :=
  ⟨by decide +kernel, by decide +kernel, parse_identifiesOccurrences _ (by decide +kernel)⟩

end Parser

end Lox
