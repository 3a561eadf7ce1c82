import Lox.Proofs.Run.Soundness

namespace Lox.Evaluation

open Lox.Computation Resolution

section
variable {context : Context} {scopes : List Scope} {env : Env} {state : State} {fuel : Nat}

/-- A variable is read where the resolver found it. -/
theorem variable_sound {target : Occurrence}
    (ready : Ready context scopes ⟨fuel + 1, .expr env (.variable target), state⟩) :
    Sound context scopes ⟨fuel + 1, .expr env (.variable target), state⟩ := by
  obtain ⟨placed, agrees⟩ := ready
  have access : Ready context scopes ⟨fuel, .access env target, state⟩ :=
    ⟨placed, agrees List.mem_cons_self⟩
  constructor
  · exact read_meets access .variable
  · intro part leads
    cases leads
    exact ⟨scopes, access⟩

variable (holds : HoldsAt context fuel)
include holds

/-- A variable is assigned where the resolver found it. -/
theorem assign_sound {span : Span} {target : Occurrence} {value : Expr}
    (ready : Ready context scopes ⟨fuel + 1, .expr env (.assign span target value), state⟩) :
    Sound context scopes ⟨fuel + 1, .expr env (.assign span target value), state⟩ := by
  obtain ⟨placed, agrees⟩ := ready
  rw [visitExpr, agrees_append] at agrees
  have first : Ready context scopes ⟨fuel, .expr env value, state⟩ := ⟨placed, agrees.1⟩
  have valued : Meets (evalExpr context fuel env value) state (GivesValid context state) _ :=
    holds first
  have access {given : Value} {after : State}
      (ended : Gives (evalExpr context fuel env value) state given after) :
      Ready context scopes ⟨fuel, .access env target, after⟩ :=
    ⟨placed.keep (valued.of_gives ended).1, agrees.2 List.mem_cons_self⟩
  constructor
  · show Meets (evalExpr context (fuel + 1) env _) state _ _
    rw [evalExpr]
    refine (valued.of_part .assignValue).bind fun given middle ended valid => ?_
    refine (assign_meets (access ended) (.assign ended) valid.2).bind ?_
    intro _ after _ assigned
    exact .pure (assigned.behind valid.1)
  · intro part leads
    cases leads with
    | assignValue => exact ⟨scopes, first⟩
    | assign ended => exact ⟨scopes, access ended⟩

theorem group_sound {span : Span} {inner : Expr}
    (ready : Ready context scopes ⟨fuel + 1, .expr env (.group span inner), state⟩) :
    Sound context scopes ⟨fuel + 1, .expr env (.group span inner), state⟩ := by
  have first : Ready context scopes ⟨fuel, .expr env inner, state⟩ := ready
  constructor
  · exact Meets.of_part (holds first) .group
  · intro part leads
    cases leads
    exact ⟨scopes, first⟩

/-- A prefixed expression is sound if its operand is. -/
theorem unary_sound {span : Span} {op : Located UnaryOp} {operand : Expr}
    (ready : Ready context scopes ⟨fuel + 1, .expr env (.unary span op operand), state⟩) :
    Sound context scopes ⟨fuel + 1, .expr env (.unary span op operand), state⟩ := by
  have first : Ready context scopes ⟨fuel, .expr env operand, state⟩ := ready
  have valued : Meets (evalExpr context fuel env operand) state (GivesValid context state) _ :=
    holds first
  constructor
  · show Meets (evalExpr context (fuel + 1) env _) state _ _
    rw [evalExpr]
    refine (valued.of_part .unary).bind fun given after ended valid => ?_
    exact applyUnary_meets valid.1
  · intro part leads
    cases leads
    exact ⟨scopes, first⟩

/-- A binary expression is sound if its operands are, the right one behind the left one. -/
theorem binary_sound {span : Span} {op : Located BinaryOp} {left right : Expr}
    (ready : Ready context scopes ⟨fuel + 1, .expr env (.binary span op left right), state⟩) :
    Sound context scopes ⟨fuel + 1, .expr env (.binary span op left right), state⟩ := by
  obtain ⟨placed, agrees⟩ := ready
  rw [visitExpr, agrees_append] at agrees
  have first : Ready context scopes ⟨fuel, .expr env left, state⟩ := ⟨placed, agrees.1⟩
  have valued : Meets (evalExpr context fuel env left) state (GivesValid context state) _ :=
    holds first
  have second {given : Value} {after : State}
      (ended : Gives (evalExpr context fuel env left) state given after) :
      Ready context scopes ⟨fuel, .expr env right, after⟩ :=
    ⟨placed.keep (valued.of_gives ended).1, agrees.2⟩
  constructor
  · show Meets (evalExpr context (fuel + 1) env _) state _ _
    rw [evalExpr]
    refine (valued.of_part .binaryLeft).bind fun given middle ended valid => ?_
    refine (Meets.of_part (holds (second ended)) (.binaryRight ended)).bind ?_
    intro other after _ validOther
    exact applyBinary_meets (valid.1.trans validOther.1)
  · intro part leads
    cases leads with
    | binaryLeft => exact ⟨scopes, first⟩
    | binaryRight ended => exact ⟨scopes, second ended⟩

/-- A logical expression is sound if its operands are, of which the right one may be skipped. -/
theorem logical_sound {span : Span} {op : Located LogicalOp} {left right : Expr}
    (ready : Ready context scopes ⟨fuel + 1, .expr env (.logical span op left right), state⟩) :
    Sound context scopes ⟨fuel + 1, .expr env (.logical span op left right), state⟩ := by
  obtain ⟨placed, agrees⟩ := ready
  rw [visitExpr, agrees_append] at agrees
  have first : Ready context scopes ⟨fuel, .expr env left, state⟩ := ⟨placed, agrees.1⟩
  have valued : Meets (evalExpr context fuel env left) state (GivesValid context state) _ :=
    holds first
  have second {given : Value} {after : State}
      (ended : Gives (evalExpr context fuel env left) state given after) :
      Ready context scopes ⟨fuel, .expr env right, after⟩ :=
    ⟨placed.keep (valued.of_gives ended).1, agrees.2⟩
  constructor
  · show Meets (evalExpr context (fuel + 1) env _) state _ _
    rw [evalExpr]
    refine (valued.of_part .logicalLeft).bind fun given middle ended valid => ?_
    split
    next => exact .pure valid
    next open_ =>
      rw [Bool.not_eq_true] at open_
      exact Meets.gives_behind (holds (second ended)) (.logicalRight ended open_) valid.1
  · intro part leads
    cases leads with
    | logicalLeft => exact ⟨scopes, first⟩
    | logicalRight ended => exact ⟨scopes, second ended⟩

/-- A call is sound if its callee, its arguments and the entered function are. -/
theorem call_expression_sound {span paren : Span} {callee : Expr} {given : List Expr}
    (ready : Ready context scopes ⟨fuel + 1, .expr env (.call span paren callee given), state⟩) :
    Sound context scopes ⟨fuel + 1, .expr env (.call span paren callee given), state⟩ := by
  obtain ⟨placed, agrees⟩ := ready
  rw [visitExpr, agrees_append] at agrees
  have first : Ready context scopes ⟨fuel, .expr env callee, state⟩ := ⟨placed, agrees.1⟩
  have valued : Meets (evalExpr context fuel env callee) state (GivesValid context state) _ :=
    holds first
  have second {function : Value} {after : State}
      (ended : Gives (evalExpr context fuel env callee) state function after) :
      Ready context scopes ⟨fuel, .exprs env given, after⟩ :=
    ⟨placed.keep (valued.of_gives ended).1, agrees.2⟩
  have passed {function : Value} {after : State}
      (ended : Gives (evalExpr context fuel env callee) state function after) :
      Meets (evalExprs context fuel env given) after
        (fun values last => Preserves context after last ∧
          ∀ value ∈ values, Valid context last.store value) _ :=
    holds (second ended)
  have third {function : Value} {values : List Value} {after last : State}
      (ended : Gives (evalExpr context fuel env callee) state function after)
      (listed : Gives (evalExprs context fuel env given) after values last) :
      Ready context scopes ⟨fuel, .call function values paren, last⟩ := by
    obtain ⟨preserves, valid⟩ := (passed ended).of_gives listed
    exact ⟨preserves.store, (valued.of_gives ended).2.keep preserves.keeps, valid⟩
  constructor
  · show Meets (evalExpr context (fuel + 1) env _) state _ _
    rw [evalExpr]
    refine (valued.of_part .callee).bind fun function middle ended valid => ?_
    split
    next callable =>
      refine ((passed ended).of_part (.arguments ended callable)).bind ?_
      intro values last listed preserves
      exact Meets.gives_behind (holds (third ended listed)) (.call ended callable listed)
        (valid.1.trans preserves.1)
    next => exact .throw (.type rfl)
  · intro part leads
    cases leads with
    | callee => exact ⟨scopes, first⟩
    | arguments ended => exact ⟨scopes, second ended⟩
    | call ended _ listed => exact ⟨scopes, third ended listed⟩

/-- The evaluation of an expression. -/
theorem expr_sound {expr : Expr} (ready : Ready context scopes ⟨fuel + 1, .expr env expr, state⟩) :
    Sound context scopes ⟨fuel + 1, .expr env expr, state⟩ := by
  cases expr with
  | literal span value =>
      have given : GivesValid context state (.ofLiteral value) state := by
        refine ⟨.refl ready.1.store, valid_of_not_closure ?_⟩
        cases value <;> exact nofun
      exact ⟨given, fun _ leads => by cases leads⟩
  | «variable» target => exact variable_sound ready
  | assign => exact assign_sound holds ready
  | group => exact group_sound holds ready
  | unary => exact unary_sound holds ready
  | binary => exact binary_sound holds ready
  | logical => exact logical_sound holds ready
  | call => exact call_expression_sound holds ready

/-- Several expressions are sound if each is, behind those before it. -/
theorem exprs_sound {exprs : List Expr}
    (ready : Ready context scopes ⟨fuel + 1, .exprs env exprs, state⟩) :
    Sound context scopes ⟨fuel + 1, .exprs env exprs, state⟩ := by
  obtain ⟨placed, agrees⟩ := ready
  cases exprs with
  | nil =>
      have given : Preserves context state state ∧
          ∀ value ∈ ([] : List Value), Valid context state.store value :=
        ⟨.refl placed.store, nofun⟩
      exact ⟨given, fun _ leads => by cases leads⟩
  | cons expr rest =>
      rw [visitExprs, agrees_append] at agrees
      have first : Ready context scopes ⟨fuel, .expr env expr, state⟩ := ⟨placed, agrees.1⟩
      have valued : Meets (evalExpr context fuel env expr) state (GivesValid context state) _ :=
        holds first
      have second {given : Value} {after : State}
          (ended : Gives (evalExpr context fuel env expr) state given after) :
          Ready context scopes ⟨fuel, .exprs env rest, after⟩ :=
        ⟨placed.keep (valued.of_gives ended).1, agrees.2⟩
      constructor
      · show Meets (evalExprs context (fuel + 1) env _) state _ _
        rw [evalExprs]
        refine (valued.of_part .first).bind fun value middle ended valid => ?_
        refine (Meets.of_part (holds (second ended)) (.rest ended)).bind ?_
        intro values last _ others
        refine .pure ⟨valid.1.trans others.1, fun given among => ?_⟩
        rcases List.mem_cons.1 among with rfl | among
        · exact valid.2.keep others.1.keeps
        · exact others.2 given among
      · intro part leads
        cases leads with
        | first => exact ⟨scopes, first⟩
        | rest ended => exact ⟨scopes, second ended⟩

theorem option_sound {given : Option Expr}
    (ready : Ready context scopes ⟨fuel + 1, .option env given, state⟩) :
    Sound context scopes ⟨fuel + 1, .option env given, state⟩ := by
  cases given with
  | none =>
      have given : GivesValid context state .nil state :=
        ⟨.refl ready.1.store, valid_of_not_closure nofun⟩
      exact ⟨given, fun _ leads => by cases leads⟩
  | some expr =>
      have first : Ready context scopes ⟨fuel, .expr env expr, state⟩ := ready
      constructor
      · exact Meets.of_part (holds first) .some
      · intro part leads
        cases leads
        exact ⟨scopes, first⟩

end

end Lox.Evaluation
