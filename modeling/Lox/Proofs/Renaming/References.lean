import Lox.Proofs.Renaming.Agreement

namespace Lox

/-- A mention with its new name is about the same declaration. -/
def Renaming.mention (new : Renaming) : Mention → Mention
  | .declaration what name isLocal => .declaration what (new.located name) isLocal
  | .occurrence target declared => .occurrence (new.occurrence target) declared

/-- Code of the renamed program sees a declaration under what its name becomes. -/
inductive SeesAlike (new : Renaming) : View → View → Prop
  | top : SeesAlike new .top .top
  | inner {seen others : Seen} (agree : new.Agree seen seen.value? others.value?) :
      SeesAlike new (.inner seen) (.inner others)

section
variable {new : Renaming} {seen others : Seen} {view other : View}

/-- A reference refers to the same declaration under its new name. -/
theorem refer_renamed {target : Occurrence} (agree : new.Agree seen seen.value? others.value?)
    (fits : new.Fits (.refer seen target)) :
    Mention.refer others (new.occurrence target) = new.mention (.refer seen target) := by
  have same : others.value? (new.occurrence target).name = seen.value? target.name := by
    rw [Renaming.occurrence, fits.refer]
    exact agree.same target.name fits.refer_fresh
  rw [Mention.refer, same]
  rfl

mutual

/-- The mentions of a renamed expression are the renamed mentions. -/
theorem mentionsExpr_renamed (agree : new.Agree seen seen.value? others.value?) : ∀ expr,
    (∀ mention ∈ mentionsExpr seen expr, new.Fits mention) →
      mentionsExpr others (new.expr expr) = (mentionsExpr seen expr).map new.mention
  | .literal _ _, _ => rfl
  | .variable target, fits =>
      congrArg (fun mention => [mention]) (refer_renamed agree (fits _ List.mem_cons_self))
  | .assign _ target value, fits => by
      obtain ⟨here, fits⟩ := List.forall_mem_cons.1 fits
      exact congrArg₂ List.cons (refer_renamed agree here) (mentionsExpr_renamed agree value fits)
  | .group _ inner, fits => mentionsExpr_renamed agree inner fits
  | .unary _ _ operand, fits => mentionsExpr_renamed agree operand fits
  | .binary _ _ left right, fits | .logical _ _ left right, fits => by
      obtain ⟨first, second⟩ := List.forall_mem_append.1 fits
      simp only [Renaming.expr, mentionsExpr, List.map_append,
        mentionsExpr_renamed agree left first, mentionsExpr_renamed agree right second]
  | .call _ _ callee given, fits => by
      obtain ⟨first, second⟩ := List.forall_mem_append.1 fits
      simp only [Renaming.expr, mentionsExpr, List.map_append,
        mentionsExpr_renamed agree callee first, mentionsExprs_renamed agree given second]

theorem mentionsExprs_renamed (agree : new.Agree seen seen.value? others.value?) : ∀ exprs,
    (∀ mention ∈ mentionsExprs seen exprs, new.Fits mention) →
      mentionsExprs others (new.exprs exprs) = (mentionsExprs seen exprs).map new.mention
  | [], _ => rfl
  | expr :: rest, fits => by
      obtain ⟨first, second⟩ := List.forall_mem_append.1 fits
      simp only [Renaming.exprs, mentionsExprs, List.map_append,
        mentionsExpr_renamed agree expr first, mentionsExprs_renamed agree rest second]

end

theorem mentionsOption_renamed (agree : new.Agree seen seen.value? others.value?)
    (given : Option Expr) (fits : ∀ mention ∈ mentionsOption seen given, new.Fits mention) :
    mentionsOption others (given.map new.expr) = (mentionsOption seen given).map new.mention := by
  cases given with
  | none => rfl
  | some expr => exact mentionsExpr_renamed agree expr fits

/-- The mentions of renamed parameters are the renamed mentions. -/
theorem mentionsParameters_renamed (parameters : List Name) :
    mentionsParameters (parameters.map new.located) =
      (mentionsParameters parameters).map new.mention := by
  simp only [mentionsParameters, List.map_map]
  rfl

namespace SeesAlike

/-- Views that see alike agree on what a name refers to. -/
theorem agree (alike : SeesAlike new view other) :
    new.Agree view.seen view.seen.value? other.seen.value? := by
  cases alike with
  | top => exact .nothing _
  | inner agree => exact agree

/-- Views that see alike are both inside a scope, or neither one is. -/
theorem isInner (alike : SeesAlike new view other) : other.isInner = view.isInner := by
  cases alike <;> rfl

/-- Views see alike behind a declaration that fits. -/
theorem extend {what : Declares} {name : Name} (alike : SeesAlike new view other)
    (fits : new.Fits (.declaration what name view.isInner)) :
    SeesAlike new (view.extend name) (other.extend (new.located name)) := by
  cases alike with
  | top => exact .top
  | inner agree =>
      exact .inner (agree.extend fits (fun _ => Bindings.value?_put ..)
        fun _ => Bindings.value?_put ..)

/-- The body of a function sees alike when the declaration does. -/
theorem within (agree : new.Agree seen seen.value? others.value?) {parameters : List Name}
    (fits : ∀ mention ∈ mentionsParameters parameters, new.Fits mention) :
    SeesAlike new (.within seen parameters) (.within others (parameters.map new.located)) := by
  unfold View.within
  induction parameters generalizing seen others with
  | nil => exact .inner agree
  | cons first rest ih =>
      obtain ⟨here, behind⟩ := List.forall_mem_cons.1 fits
      cases (SeesAlike.inner agree).extend here with
      | inner further => exact ih further behind

end SeesAlike

mutual

/-- The mentions of a renamed statement are the renamed mentions, and what it declares is seen
alike. -/
theorem mentionsStmt_renamed : ∀ (stmt : Stmt) {view other : View}, SeesAlike new view other →
    (∀ mention ∈ mentionsStmt view stmt, new.Fits mention) →
      mentionsStmt other (new.stmt stmt) = (mentionsStmt view stmt).map new.mention ∧
        SeesAlike new (view.after stmt) (other.after (new.stmt stmt))
  | .expression _ value, _, _, alike, fits | .print _ value, _, _, alike, fits =>
      ⟨mentionsExpr_renamed alike.agree value fits, alike⟩
  | .variable _ name initializer, _, _, alike, fits => by
      obtain ⟨here, inside⟩ := List.forall_mem_cons.1 fits
      refine ⟨?_, alike.extend here⟩
      simp only [Renaming.stmt, mentionsStmt, List.map_cons, alike.isInner,
        mentionsOption_renamed alike.agree initializer inside]
      rfl
  | .function _ name parameters body, _, _, alike, fits => by
      obtain ⟨here, inside⟩ := List.forall_mem_cons.1 fits
      obtain ⟨given, inside⟩ := List.forall_mem_append.1 inside
      have behind := alike.extend here
      refine ⟨?_, behind⟩
      simp only [Renaming.stmt, mentionsStmt, List.map_cons, List.map_append, alike.isInner,
        mentionsParameters_renamed,
        mentionsStmts_renamed body (.within behind.agree given) inside]
      rfl
  | .block _ body, _, _, alike, fits =>
      ⟨mentionsStmts_renamed body (.inner alike.agree) fits, alike⟩
  | .branch _ condition consequent none, _, _, alike, fits => by
      obtain ⟨tested, chosen⟩ := List.forall_mem_append.1 fits
      refine ⟨?_, alike⟩
      simp only [Renaming.stmt, mentionsStmt, List.map_append,
        mentionsExpr_renamed alike.agree condition tested,
        (mentionsStmt_renamed consequent alike chosen).1]
  | .branch _ condition consequent (some alternative), _, _, alike, fits => by
      obtain ⟨tested, others⟩ := List.forall_mem_append.1 fits
      obtain ⟨chosen, refused⟩ := List.forall_mem_append.1 others
      refine ⟨?_, alike⟩
      simp only [Renaming.stmt, mentionsStmt, List.map_append,
        mentionsExpr_renamed alike.agree condition tested,
        (mentionsStmt_renamed consequent alike chosen).1,
        (mentionsStmt_renamed alternative alike refused).1]
  | .loop _ condition body, _, _, alike, fits => by
      obtain ⟨tested, repeated⟩ := List.forall_mem_append.1 fits
      refine ⟨?_, alike⟩
      simp only [Renaming.stmt, mentionsStmt, List.map_append,
        mentionsExpr_renamed alike.agree condition tested,
        (mentionsStmt_renamed body alike repeated).1]
  | .giveBack _ _ value, _, _, alike, fits =>
      ⟨mentionsOption_renamed alike.agree value fits, alike⟩

/-- The mentions of renamed statements are the renamed mentions. -/
theorem mentionsStmts_renamed : ∀ (stmts : List Stmt) {view other : View},
    SeesAlike new view other → (∀ mention ∈ mentionsStmts view stmts, new.Fits mention) →
      mentionsStmts other (new.stmts stmts) = (mentionsStmts view stmts).map new.mention
  | [], _, _, _, _ => rfl
  | stmt :: rest, _, _, alike, fits => by
      obtain ⟨first, second⟩ := List.forall_mem_append.1 fits
      obtain ⟨same, behind⟩ := mentionsStmt_renamed stmt alike first
      simp only [Renaming.stmts, mentionsStmts, List.map_append, same,
        mentionsStmts_renamed rest behind second]

end

end

/-- In a renamed program each name is about the same declaration as before. -/
theorem mentionsOf_renamed {new : Renaming} {program : Program}
    (fits : ∀ mention ∈ mentionsOf program, new.Fits mention) :
    mentionsOf (new.stmts program) = (mentionsOf program).map new.mention :=
  mentionsStmts_renamed program .top fits

end Lox
