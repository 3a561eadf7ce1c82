import Lox.Proofs.Joining.Spelling
import Lox.Proofs.Sugar.Loops

namespace Lox

open Lox.Grammar Lox.Parser Relabeling Report

section
variable {before after : List Lexeme} {loop : CountingLoop}

namespace CountingLoop

/-- The tokens of what a loop is short for may stand in its place. -/
theorem FormedBefore.unsugared_makes (formed : loop.FormedBefore after) {program : Program}
    {occurrences : Nat}
    (form : Declarations .nearest 0 (before ++ (loop.lexemes ++ after)) program occurrences) :
    MakesDeclarations ((before ++ (loop.unsugared ++ after)).map Lexeme.token)
      (unlabeled.stmts program) := by
  have atEnd : leading [] ≠ some .else := by decide
  obtain ⟨inner, behind, stmt, same, stands, replaced⟩ := form.holds formed.opens atEnd rfl
  rw [List.append_nil] at stands replaced
  obtain ⟨given, also, short⟩ := formed.unsugared_makesBefore
  obtain ⟨rfl, shaped⟩ := also.unique stands same
  rw [List.map_append, List.map_append]
  exact replaced _ (shaped ▸ short)

section
variable {holds : Lexeme → Prop} (signs : ∀ symbol : Symbol, holds symbol.lexeme)
include signs

/-- What holds of lexemes and of braces holds in braces. -/
theorem forall_braced {lexemes : List Lexeme} (inside : ∀ lexeme ∈ lexemes, holds lexeme) :
    ∀ lexeme ∈ braced lexemes, holds lexeme :=
  List.forall_mem_cons.2 ⟨signs _,
    List.forall_mem_append.2 ⟨inside, List.forall_mem_singleton.2 (signs _)⟩⟩

/-- Lexemes that are not in the loop are symbols. -/
theorem forall_unsugared (inside : ∀ lexeme ∈ loop.lexemes, holds lexeme) :
    ∀ lexeme ∈ loop.unsugared, holds lexeme := by
  simp only [lexemes, List.forall_mem_cons, List.forall_mem_append] at inside
  obtain ⟨-, -, start, test, -, step, -, body⟩ := inside
  have tested : ∀ lexeme ∈ condition loop.test, holds lexeme := by
    unfold condition
    split
    · exact List.forall_mem_singleton.2 (signs _)
    · exact test
  have stepped : ∀ lexeme ∈ stepping loop.body loop.step, holds lexeme := by
    unfold stepping
    split
    · exact body
    · exact forall_braced signs (List.forall_mem_append.2
        ⟨body, List.forall_mem_append.2 ⟨step, List.forall_mem_singleton.2 (signs _)⟩⟩)
  have looped : ∀ lexeme ∈ conditional (condition loop.test) (stepping loop.body loop.step),
      holds lexeme :=
    List.forall_mem_cons.2 ⟨signs _, List.forall_mem_cons.2 ⟨signs _,
      List.forall_mem_append.2 ⟨tested, List.forall_mem_cons.2 ⟨signs _, stepped⟩⟩⟩⟩
  unfold unsugared starting
  split
  · exact looped
  · exact forall_braced signs (List.forall_mem_append.2 ⟨start, looped⟩)

end

/-- With the loop written out the lexemes still have the tokens of their texts. -/
theorem unsugared_spelled
    (spelled : ∀ lexeme ∈ before ++ (loop.lexemes ++ after),
      Token.Spelling lexeme.token lexeme.text.toList) :
    ∀ lexeme ∈ before ++ (loop.unsugared ++ after),
      Token.Spelling lexeme.token lexeme.text.toList := by
  obtain ⟨early, inside, late⟩ : _ ∧ _ ∧ _ := by
    simpa only [List.forall_mem_append] using spelled
  simp only [List.forall_mem_append]
  exact ⟨early, forall_unsugared .symbol inside, late⟩

end CountingLoop

/-- A text in which a loop is written out is read to the same program, apart from spans and a
renumbering of the occurrences. -/
theorem parse_unsugared {first second : String} (clean : (parse first).errors = [])
    (formed : loop.FormedBefore after)
    (contains : lexemesOf first = before ++ (loop.lexemes ++ after))
    (lexed : lexErrorsOf second = [])
    (same : (lexemesOf second).map Lexeme.text =
      (before ++ (loop.unsugared ++ after)).map Lexeme.text) :
    (parse second).errors = [] ∧ ∃ renumber : Equiv.Perm Nat,
      unspanned.stmts (parse second).program =
        (renumbered renumber).stmts (parse first).program := by
  obtain ⟨clear, occurrences, form⟩ := forms_of_clean clean
  have spelled : ∀ lexeme ∈ before ++ (loop.lexemes ++ after),
      Token.Spelling lexeme.token lexeme.text.toList :=
    fun lexeme given => lexeme_spelled clear (contains ▸ given)
  have tokens := tokens_of_texts (fun _ => lexeme_spelled lexed)
    (CountingLoop.unsugared_spelled spelled) same
  obtain ⟨program, next, formed', shaped⟩ :=
    formed.unsugared_makes (contains ▸ form) 0 (lexemesOf second) tokens
  have read := (parse_eq_iff second program).2 ⟨lexed, next, formed'⟩
  rw [read]
  exact ⟨rfl, exists_renumbered shaped form.counts.nodup formed'.counts.nodup⟩

/-- Every keyword of a counting loop in a text without errors starts such a loop. -/
theorem exists_countingLoop {text : String} {tail : List Lexeme} {keyword : Lexeme}
    (clean : (parse text).errors = []) (opens : Spells .for keyword)
    (contains : lexemesOf text = before ++ keyword :: tail) :
    ∃ loop after, keyword :: tail = CountingLoop.lexemes loop ++ after ∧
      loop.FormedBefore after := by
  obtain ⟨-, occurrences, form⟩ := forms_of_clean clean
  have atEnd : leading [] ≠ some .else := by decide
  obtain ⟨inner, after, stmt, same, stands, -⟩ := form.holds opens atEnd contains
  rw [List.append_nil] at stands
  obtain ⟨first, dangling, next, stated, free⟩ := stands
  have begins : leading (inner ++ after) = some .for := same ▸ symbol?_eq_some.2 opens
  cases stated with
  | forLoop opens partsOpen starts tests separates steps partsClose repeated =>
      exact ⟨⟨_, _, _, _, _, _, _, _⟩, after, same, opens, partsOpen, ⟨_, _, _, starts⟩,
        ⟨_, _, _, tests⟩, separates, ⟨_, _, _, steps⟩, partsClose,
        ⟨_, _, _, _, repeated, free⟩⟩
  | branch other | alternative other | print other | giveBack other | loop other | block other =>
      cases (symbol?_eq_some.2 other).symm.trans begins
  | expression evaluated =>
      exact absurd begins ((expressionStatement_opens evaluated).leading_ne rfl after)

/-- Counting loops are only short for other statements. Where a text that is read without errors has
one, the lexemes of the loop may be written out, and there is a text with these lexemes. Every such
text is read without errors to the same program, apart from spans and a renumbering of the
occurrences. It has the same distances under the new numbers, and it prints the same, reports the
same errors, sets the same flags and ends in the same way. -/
theorem run_ignoresSugar {first : String} (clean : (parse first).errors = [])
    (formed : loop.FormedBefore after)
    (contains : lexemesOf first = before ++ (loop.lexemes ++ after)) :
    let texts := (before ++ (loop.unsugared ++ after)).map Lexeme.text
    (∃ second, lexErrorsOf second = [] ∧ (lexemesOf second).map Lexeme.text = texts) ∧
    ∀ second, lexErrorsOf second = [] → (lexemesOf second).map Lexeme.text = texts →
      (parse second).errors = [] ∧ ∃ renumber : Equiv.Perm Nat,
        unspanned.stmts (parse second).program =
            (renumbered renumber).stmts (parse first).program ∧
          (resolve (parse second).program).distances =
            (resolve (parse first).program).distances.map
              (fun entry => (renumber entry.1, entry.2)) ∧
          (∀ id : Nat, (resolve (parse second).program).table[renumber id]? =
            (resolve (parse first).program).table[id]?) ∧
          ∀ fuel clock output,
            Run.Alike (run fuel clock output first) (run fuel clock output second) ∧
            ∀ {ρ : Type} [Reporting ρ] (reporter : ρ) (name other : String),
              let diagnostics :=
                (DiagnosticsOf.new ⟨name, first⟩ reporter).reportAll
                  (run fuel clock output first).errors
              let again :=
                (DiagnosticsOf.new ⟨other, second⟩ reporter).reportAll
                  (run fuel clock output second).errors
              again.hadError = diagnostics.hadError ∧
                again.hadRuntimeError = diagnostics.hadRuntimeError := by
  intro texts
  have spelled : ∀ lexeme ∈ before ++ (loop.lexemes ++ after),
      Token.Spelling lexeme.token lexeme.text.toList :=
    fun lexeme given => lexeme_spelled (forms_of_clean clean).1 (contains ▸ given)
  refine ⟨⟨_, linesOf_lexemes (CountingLoop.unsugared_spelled spelled)⟩, ?_⟩
  intro second lexed same
  obtain ⟨fine, renumber, program⟩ := parse_unsugared clean formed contains lexed same
  have distances := resolve_renumbered program
  refine ⟨fine, renumber, program, distances, table_renumbered distances, ?_⟩
  intro fuel clock output
  have alike : Run.Alike (run fuel clock output first) (run fuel clock output second) := by
    rw [run_eq_of_clean clean, run_eq_of_clean fine]
    exact .of_renumbered program fuel clock output
  exact ⟨alike, fun reporter name other => alike.flags _ _ reporter⟩

end

/-- A loop that runs once, with an `if` without an `else` as its body. -/
def onceLoop : CountingLoop where
  keyword := ⟨.symbol .for, "for", ⟨12, 15⟩⟩
  opening := ⟨.symbol .leftParen, "(", ⟨16, 17⟩⟩
  start := [⟨.symbol .var, "var", ⟨17, 20⟩⟩, ⟨.identifier "i", "i", ⟨21, 22⟩⟩,
    ⟨.symbol .equal, "=", ⟨23, 24⟩⟩, ⟨.symbol .true, "true", ⟨25, 29⟩⟩,
    ⟨.symbol .semicolon, ";", ⟨29, 30⟩⟩]
  test := [⟨.identifier "i", "i", ⟨31, 32⟩⟩]
  separator := ⟨.symbol .semicolon, ";", ⟨32, 33⟩⟩
  step := [⟨.identifier "i", "i", ⟨34, 35⟩⟩, ⟨.symbol .equal, "=", ⟨36, 37⟩⟩,
    ⟨.symbol .nil, "nil", ⟨38, 41⟩⟩]
  closing := ⟨.symbol .rightParen, ")", ⟨41, 42⟩⟩
  body := [⟨.symbol .if, "if", ⟨43, 45⟩⟩, ⟨.symbol .leftParen, "(", ⟨46, 47⟩⟩,
    ⟨.identifier "i", "i", ⟨47, 48⟩⟩, ⟨.symbol .rightParen, ")", ⟨48, 49⟩⟩,
    ⟨.symbol .print, "print", ⟨50, 55⟩⟩, ⟨.identifier "i", "i", ⟨56, 57⟩⟩,
    ⟨.symbol .semicolon, ";", ⟨57, 58⟩⟩]

def beforeOnce : List Lexeme :=
  [⟨.symbol .if, "if", ⟨0, 2⟩⟩, ⟨.symbol .leftParen, "(", ⟨3, 4⟩⟩,
    ⟨.symbol .true, "true", ⟨4, 8⟩⟩, ⟨.symbol .rightParen, ")", ⟨8, 9⟩⟩,
    ⟨.symbol .leftBrace, "\x7b", ⟨10, 11⟩⟩]

def afterOnce : List Lexeme :=
  [⟨.symbol .rightBrace, "\x7d", ⟨59, 60⟩⟩, ⟨.symbol .else, "else", ⟨61, 65⟩⟩,
    ⟨.symbol .print, "print", ⟨66, 71⟩⟩, ⟨.identifier "i", "i", ⟨72, 73⟩⟩,
    ⟨.symbol .semicolon, ";", ⟨73, 74⟩⟩]

/-- The loop stands in front of an `else` that belongs to another `if`. -/
def onceText : String :=
  "if (true) \x7b for (var i = true; i; i = nil) if (i) print i; \x7d else print i;"

/-- The same text with the loop written out. -/
def writtenOutText : String :=
  "if (true) \x7b \x7b var i = true; while (i) \x7b if (i) print i; i = nil; \x7d \x7d \x7d " ++
    "else print i;"

theorem onceLoop_formed : onceLoop.FormedBefore afterOnce where
  opens := rfl
  partsOpen := rfl
  starts := by
    have value : Initializer 0
        [⟨.symbol .equal, "=", ⟨23, 24⟩⟩, ⟨.symbol .true, "true", ⟨25, 29⟩⟩] _ 0 :=
      .some rfl (Primary.literal .true).expression
    refine ⟨0, _, 0, .variable (.declare ?_ value ?_)⟩ <;> exact rfl
  tests := ⟨0, _, _, .some Primary.variable.expression⟩
  separates := rfl
  steps := ⟨0, _, _, .some (.assign rfl (Primary.literal .nil).expression)⟩
  partsClose := rfl
  repeated := by
    have test : Expression 0 [⟨.identifier "i", "i", ⟨47, 48⟩⟩] _ 1 := Primary.variable.expression
    have value : Expression 1 [⟨.identifier "i", "i", ⟨56, 57⟩⟩] _ 2 := Primary.variable.expression
    refine ⟨_, 0, true, 2, .branch ?_ ?_ test ?_ (.print ?_ value ?_), fun _ => by decide⟩ <;>
      exact rfl

/-- The loop runs as before when it is written out. -/
theorem run_ignoresSugar_once :
    (parse onceText).errors = [] ∧ onceLoop.FormedBefore afterOnce ∧
      lexemesOf onceText = beforeOnce ++ (onceLoop.lexemes ++ afterOnce) ∧
      lexErrorsOf writtenOutText = [] ∧
      (lexemesOf writtenOutText).map Lexeme.text =
        (beforeOnce ++ (onceLoop.unsugared ++ afterOnce)).map Lexeme.text ∧
      (parse writtenOutText).errors = [] ∧
      Run.Alike (run 100 (fun _ => 0) .unlimited onceText)
        (run 100 (fun _ => 0) .unlimited writtenOutText) := by
  have clean : (parse onceText).errors = [] := by decide +kernel
  have contains : lexemesOf onceText = beforeOnce ++ (onceLoop.lexemes ++ afterOnce) := by
    with_unfolding_all rfl
  have lexed : lexErrorsOf writtenOutText = [] := by decide +kernel
  have same : (lexemesOf writtenOutText).map Lexeme.text =
      (beforeOnce ++ (onceLoop.unsugared ++ afterOnce)).map Lexeme.text := by
    decide +kernel
  obtain ⟨fine, renumber, -, -, -, runs⟩ :=
    (run_ignoresSugar clean onceLoop_formed contains).2 writtenOutText lexed same
  exact ⟨clean, onceLoop_formed, contains, lexed, same, fine, (runs 100 _ _).1⟩

end Lox
