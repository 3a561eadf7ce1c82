import Mathlib.Data.List.Basic
import Lox.Proofs.Layout.Nodes
import Lox.Proofs.Layout.Reports

namespace Lox

section
variable {lexemes : List Lexeme}

/-- Lexemes in order are inside the span from the first of them to the last one. -/
theorem InOrder.inside (order : InOrder lexemes) {lexeme : Lexeme} (given : lexeme ∈ lexemes) :
    lexeme.span.Inside (Grammar.extent lexemes) := by
  obtain ⟨before, behind, rfl⟩ := List.append_of_mem given
  obtain ⟨proper, ordered⟩ := order
  obtain ⟨-, later, earlier⟩ := List.pairwise_append.1 ordered
  constructor
  · cases before with
    | nil => exact Nat.le_refl _
    | cons first others =>
        have starts := proper first (by simp)
        have follows := earlier first List.mem_cons_self lexeme List.mem_cons_self
        change first.span.start ≤ lexeme.span.start
        omega
  · rcases List.eq_nil_or_concat' behind with rfl | ⟨others, last, rfl⟩
    · simp [Grammar.extent]
    · have stops := proper last (by simp)
      have follows := (List.pairwise_cons.1 later).1 last (by simp)
      simp only [Grammar.extent, ← List.cons_append, ← List.append_assoc, List.getLast?_concat,
        Option.map_some, Option.getD_some]
      omega

/-- Parts of lexemes in order are in order. -/
theorem InOrder.append {others : List Lexeme} (order : InOrder (lexemes ++ others)) :
    InOrder lexemes ∧ InOrder others := by
  obtain ⟨proper, ordered⟩ := order
  obtain ⟨first, second, -⟩ := List.pairwise_append.1 ordered
  obtain ⟨early, late⟩ := List.forall_mem_append.1 proper
  exact ⟨⟨early, first⟩, late, second⟩

end

namespace Grammar

/-- A counting loop has the span that it is given. -/
theorem countingLoop_span (span : Span) (initial : Option Stmt) (test step : Option Expr)
    (body : Stmt) : (countingLoop span initial test step body).span = span := by
  cases initial <;> cases step <;> rfl

/-- The span of a declaration is that of its lexemes. -/
theorem Declaration.span_eq {attachment : Attachment} {first next : Nat} {lexemes : List Lexeme}
    {stmt : Stmt} (declared : Declaration attachment first lexemes stmt next) :
    stmt.span = extent lexemes := by
  cases declared with
  | function => rfl
  | «variable» declared => cases declared; rfl
  | statement stated =>
      cases stated with
      | forLoop => exact countingLoop_span _ _ _ _ _
      | expression evaluated => cases evaluated; rfl
      | _ => rfl

/-- Every lexeme of some declarations is inside one of them. -/
theorem Declarations.covers {attachment : Attachment} {lexemes : List Lexeme} :
    ∀ {first next : Nat} {stmts : List Stmt}, Declarations attachment first lexemes stmts next →
      InOrder lexemes → ∀ lexeme ∈ lexemes, ∃ stmt ∈ stmts, lexeme.span.Inside stmt.span
  | _, _, _, .none, _ => nofun
  | _, _, _, .more declared declarations, order => by
      obtain ⟨here, further⟩ := order.append
      refine List.forall_mem_append.2 ⟨fun lexeme given => ?_, fun lexeme given => ?_⟩
      · exact ⟨_, List.mem_cons_self, declared.span_eq ▸ here.inside given⟩
      · obtain ⟨stmt, among, inside⟩ := declarations.covers further lexeme given
        exact ⟨stmt, List.mem_cons_of_mem _ among, inside⟩

end Grammar

/-- Statements in sequence follow one another. -/
theorem Stmt.InSequence.ordered {lexemes : List Lexeme} {first last : Nat} {stmts : List Stmt}
    (sequence : Stmt.InSequence lexemes first last stmts) :
    (∀ stmt ∈ stmts, first ≤ stmt.span.start) ∧
      stmts.Pairwise fun before behind =>
        before.span.start < behind.span.start ∧ before.span.stop ≤ behind.span.start := by
  induction stmts generalizing first with
  | nil => exact ⟨nofun, .nil⟩
  | cons stmt rest ih =>
      obtain ⟨starts, laid, others⟩ := sequence
      obtain ⟨later, ordered⟩ := ih others
      have proper := laid.bounded.proper
      refine ⟨List.forall_mem_cons.2 ⟨starts, fun other given => ?_⟩,
        List.pairwise_cons.2 ⟨fun other given => ?_, ordered⟩⟩
      · have behind := later other given
        omega
      · have behind := later other given
        exact ⟨by omega, behind⟩

namespace Parser

/-- The spans of a tree are exact and nested, and those of the statements of a program are apart. They
share out the lexemes of a text without errors. -/
structure SpansNested (text : String) : Prop where
  nodes : ∀ node ∈ Stmt.nodesAll (parse text).program, node.Exact text
  ordered : (parse text).program.Pairwise fun before behind =>
    before.span.start < behind.span.start ∧ before.span.stop ≤ behind.span.start
  shared : (parse text).errors = [] → ∀ lexeme ∈ lexemesOf text,
    ∃! index : Fin (parse text).program.length,
      lexeme.span.Inside ((parse text).program[index]).span

/-- A lexeme is inside of one statement at most. -/
theorem inside_unique {stmts : List Stmt} {span : Span}
    (ordered : stmts.Pairwise fun before behind =>
      before.span.start < behind.span.start ∧ before.span.stop ≤ behind.span.start)
    (proper : span.start < span.stop) {first second : Fin stmts.length}
    (inside : span.Inside stmts[first].span) (also : span.Inside stmts[second].span) :
    first = second := by
  have apart {before behind : Fin stmts.length} (less : before < behind)
      (inside : span.Inside stmts[before].span) (also : span.Inside stmts[behind].span) : False := by
    have follows := (List.pairwise_iff_getElem.1 ordered before behind before.2 behind.2 less).2
    have stop := inside.stop
    have start := also.start
    simp only [Fin.getElem_fin] at stop start
    omega
  rcases Nat.lt_trichotomy first second with less | same | less
  · exact (apart less inside also).elim
  · exact Fin.ext same
  · exact (apart less also inside).elim

/-- The spans of what is read of a text are exact and nested, also if the text has errors. -/
theorem parse_nestsSpans (text : String) : SpansNested text := by
  obtain ⟨last, sequence⟩ := parse_inSequence text
  have order := lexemesOf_inOrder text
  have ordered := sequence.ordered.2
  have laid : Stmt.LaidOutIn (lexemesOf text) ⟨0, last⟩ (parse text).program :=
    sequence.laidOutIn (Nat.le_refl _) (Nat.le_refl _)
  refine ⟨fun node given => (laid.nodes node given).exact, ordered, fun clean lexeme given => ?_⟩
  obtain ⟨-, next, declarations⟩ := forms_of_clean clean
  obtain ⟨stmt, among, inside⟩ := declarations.covers order lexeme given
  obtain ⟨index, within, rfl⟩ := List.getElem_of_mem among
  exact ⟨⟨index, within⟩, inside, fun other also =>
    inside_unique ordered (order.proper lexeme given) also inside⟩

end Parser

end Lox
