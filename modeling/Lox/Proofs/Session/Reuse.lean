import Lox.Proofs.Run.Agreement
import Lox.Proofs.Session.Keeping
import Lox.Proofs.Session.Merging

namespace Lox

open Evaluation Resolution Lox.Computation

/-- A text that is entered in a session, with the fuel for its run. -/
structure Entry where
  text : String
  fuel : Nat

def Entry.program (entry : Entry) : Program := (parse entry.text).program

namespace Interpreter

/-- The program of a text is resolved. -/
def prepare (interpreter : Interpreter) (entry : Entry) : Interpreter :=
  (interpreter.resolve entry.program).1

/-- The program of a text is resolved and run. -/
def enter (interpreter : Interpreter) (entry : Entry) : Ending × Interpreter :=
  (interpreter.prepare entry).interpret entry.fuel entry.program

/-- Texts are entered one after another, whether their runs finish or halt. -/
def enterAll (interpreter : Interpreter) (entries : List Entry) : Interpreter :=
  entries.foldl (fun interpreter entry => (interpreter.enter entry).2) interpreter

/-- The last entry is entered behind the others. -/
theorem enterAll_concat (interpreter : Interpreter) (entries : List Entry) (entry : Entry) :
    interpreter.enterAll (entries ++ [entry]) =
      ((interpreter.enterAll entries).enter entry).2 := by
  rw [enterAll, List.foldl_append]
  rfl

end Interpreter

/-- An access finds the frame at a distance, or without a distance the global one. -/
def LooksUp (context : Context) (distance : Option Nat) (env : Env) (target : Occurrence)
    (state : Evaluation.State) : Prop :=
  match distance with
  | some distance => ∃ frame, env.frames[distance]? = some frame ∧
      locate context env target state = .ok frame state
  | none => locate context env target state =
      if (state.store.read? context.globals.frame target.name).isSome then
        .ok context.globals.frame state
      else .error (.error ⟨.notDefined target.name, target.span⟩) state

/-- An access that is ready is looked up where the resolver found it. -/
theorem looksUp_of_ready {context : Context} {scopes : List Scope} {fuel : Nat} {env : Env}
    {target : Occurrence} {state : Evaluation.State}
    (ready : Ready context scopes ⟨fuel, .access env target, state⟩) :
    LooksUp context context.distances[target.id]? env target state := by
  obtain ⟨placed, agrees⟩ := ready
  cases found : context.distances[target.id]? with
  | none => exact locate_of_global env state found placed.store.alone
  | some distance =>
      obtain ⟨frame, given, -, bound⟩ := placed.fits.frame_of_distance (agrees.symm.trans found)
      exact ⟨frame, given, locate_of_distance found given bound⟩

/-- An interpreter that has met some programs has their distances, and its store is valid and holds
closures of these programs only. -/
structure Consistent (programs : List Program) (interpreter : Interpreter) : Prop where
  distances : interpreter.context.distances = .collect programs
  store : ValidStore interpreter.context interpreter.state.store
  traced : KnownStore (OccursIn programs) interpreter.state.store

/-- A new interpreter has met no program. -/
theorem consistent_new (clock : Nat → Float) (output : Sink) :
    Consistent [] (Interpreter.new clock output) := by
  refine ⟨rfl, ⟨rfl, ?_, ?_⟩, ?_⟩
  · change 0 < ((Store.empty.push).write 0 "clock" _ : Store Value).frames.size
    exact Nat.lt_of_lt_of_le (by decide) (Keeps.write _ _ _ _).frames
  · intro frame name value found
    cases Interpreter.new_read? clock output found
    exact valid_of_not_closure nofun
  · intro frame name value found
    cases Interpreter.new_read? clock output found
    exact allKnown_nil

namespace Consistent

variable {programs : List Program} {interpreter : Interpreter}

/-- The distances of another program leave those of earlier occurrences as they are. -/
theorem prepare {entry : Entry} (consistent : Consistent programs interpreter)
    (compatible : Compatible (programs ++ [entry.program])) :
    Consistent (programs ++ [entry.program]) (interpreter.prepare entry) := by
  have distances : (interpreter.prepare entry).context.distances =
      .collect (programs ++ [entry.program]) := by
    rw [Distances.collect, List.foldl_append]
    change interpreter.context.distances.merge _ = _
    rw [consistent.distances]
    rfl
  refine ⟨distances, ?_, ?_⟩
  · have globals : (interpreter.prepare entry).context.globals = interpreter.context.globals := rfl
    apply consistent.store.transfer consistent.traced globals
    rintro target ⟨program, among, occurs⟩
    have earlier := compatible.subset (List.subset_append_left programs [entry.program])
    rw [distances, consistent.distances, (compatible_iff _).1 earlier program among target occurs]
    exact (compatible_iff _).1 compatible program (List.mem_append_left _ among) target occurs
  · intro frame name value found target occurs
    exact (consistent.traced found target occurs).subset (List.subset_append_left _ _)

section
variable {program : Program} (consistent : Consistent programs interpreter)
  (among : program ∈ programs)
include consistent among

/-- A program that is resolved is ready to run. -/
theorem ready (compatible : Compatible programs) {attachment : Grammar.Attachment}
    {lexemes : List Lexeme} (forms : Grammar.Forms attachment lexemes program) (fuel : Nat) :
    Ready interpreter.context [] (interpreter.start program fuel) := by
  have fits : Fits interpreter.context.globals.frame interpreter.state.store
      interpreter.context.globals.frames [] := by
    rw [Env.frames, consistent.store.alone]
    exact .globals
  refine ⟨⟨consistent.store, fits⟩, List.forall_mem_nil _, forms.proper, false, ?_⟩
  intro target scopes visited
  have occurs := target_of_visitStmts program visited
  rw [consistent.distances, (compatible_iff _).1 compatible program among target occurs]
  exact table_agrees forms.distinct visited

/-- Every occurrence at the start of a program is one of the session's. -/
theorem traced_start (fuel : Nat) :
    TracedMoment (OccursIn programs) (interpreter.start program fuel) :=
  ⟨fun _ occurs => ⟨program, among, occurs⟩, consistent.traced⟩

/-- A run leaves a consistent interpreter, also one that halts. -/
theorem interpret {fuel : Nat}
    (ready : Ready interpreter.context [] (interpreter.start program fuel)) :
    Consistent programs (interpreter.interpret fuel program).2 := by
  have traces : Traces (OccursIn programs)
      (runStmts interpreter.context fuel interpreter.context.globals program) Flow.targets :=
    (tracesAll interpreter.context fuel).stmts _ _ (consistent.traced_start among fuel).task
  cases ended : runStmts interpreter.context fuel interpreter.context.globals program
      interpreter.state with
  | ok flow after =>
      have meets : Meets (runStmts interpreter.context fuel interpreter.context.globals program)
          interpreter.state (Leaves interpreter.context interpreter.state
            interpreter.context.globals (scopesAfterAll [] program)) _ :=
        (sound interpreter.context ready).holds
      rw [Interpreter.interpret_of_ok ended]
      exact ⟨consistent.distances, (meets.of_gives ended).1.store,
        (traces.of_gives consistent.traced ended).1⟩
  | error halt after =>
      rw [Interpreter.interpret_of_error ended]
      exact ⟨consistent.distances, store_of_halts ready ended,
        traces.of_error consistent.traced ended⟩

end

end Consistent

/-- The next text of a session is ready to run when it is resolved. -/
theorem Consistent.enter {programs : List Program} {interpreter : Interpreter} {entry : Entry}
    (consistent : Consistent programs interpreter) (clean : (parse entry.text).errors = [])
    (compatible : Compatible (programs ++ [entry.program])) :
    Consistent (programs ++ [entry.program]) (interpreter.prepare entry) ∧
      Ready (interpreter.prepare entry).context []
        ((interpreter.prepare entry).start entry.program entry.fuel) := by
  have forms := (Parser.forms_of_clean clean).2
  have prepared := consistent.prepare compatible
  have among : entry.program ∈ programs ++ [entry.program] :=
    List.mem_append_right _ List.mem_cons_self
  exact ⟨prepared, prepared.ready among compatible forms entry.fuel⟩

/-- The runs of compatible programs leave a consistent interpreter. -/
theorem consistent_enterAll {entries : List Entry}
    (clean : ∀ entry ∈ entries, (parse entry.text).errors = [])
    (compatible : Compatible (entries.map Entry.program)) (clock : Nat → Float) (output : Sink) :
    Consistent (entries.map Entry.program) ((Interpreter.new clock output).enterAll entries) := by
  induction entries using List.reverseRecOn with
  | nil => exact consistent_new clock output
  | append_singleton entries entry ih =>
      rw [List.map_append, List.map_singleton] at compatible ⊢
      have before := ih (fun other among => clean other (List.mem_append_left _ among))
        (compatible.subset (List.subset_append_left _ _))
      obtain ⟨prepared, ready⟩ :=
        before.enter (clean entry (List.mem_append_right _ List.mem_cons_self)) compatible
      rw [Interpreter.enterAll_concat]
      exact prepared.interpret (List.mem_append_right _ List.mem_cons_self) ready

/-- A run is safe when the interpreter has the right distances for the programs that it has met, the
one that runs included. -/
structure SafeRun (programs : List Program) (interpreter : Interpreter) (entry : Entry) : Prop where
  /-- Every occurrence has the distance that its own program has for it. -/
  distances : ∀ ⦃own⦄, own ∈ programs → ∀ ⦃target⦄, target ∈ Stmt.targetsAll own →
    interpreter.context.distances[target.id]? = (resolve own).table[target.id]?
  /-- A variable that is accessed occurs in one of the programs, and it is looked up with the
  distance that its own program has for it, or in the globals if there is none. -/
  lookups : ∀ ⦃fuel env target state⦄,
    Reaches interpreter.context (interpreter.start entry.program entry.fuel)
      ⟨fuel, .access env target, state⟩ →
    OccursIn programs target ∧ ∀ own ∈ programs, target ∈ Stmt.targetsAll own →
      LooksUp interpreter.context (resolve own).table[target.id]? env target state
  /-- No access goes beyond the last frame of an environment. -/
  inside : ∀ name, (interpreter.interpret entry.fuel entry.program).1 ≠ .halted (.lostScope name)

/-- An entry of compatible programs is safe in a consistent interpreter. -/
theorem Consistent.safe {programs : List Program} {interpreter : Interpreter} {entry : Entry}
    (consistent : Consistent programs interpreter) (among : entry.program ∈ programs)
    (compatible : Compatible programs)
    (ready : Ready interpreter.context [] (interpreter.start entry.program entry.fuel)) :
    SafeRun programs interpreter entry := by
  have agree (own : Program) (amongToo : own ∈ programs) (target : Occurrence)
      (occurs : target ∈ Stmt.targetsAll own) :
      interpreter.context.distances[target.id]? = (resolve own).table[target.id]? := by
    rw [consistent.distances]
    exact (compatible_iff _).1 compatible own amongToo target occurs
  constructor
  · exact fun own amongToo target occurs => agree own amongToo target occurs
  · intro fuel env target state reached
    obtain ⟨scopes, accessed⟩ := ready_of_reaches _ ready reached
    have traced := traced_of_reaches reached (consistent.traced_start among entry.fuel)
    refine ⟨traced.task target List.mem_cons_self, ?_⟩
    intro own amongToo occurs
    rw [← agree own amongToo target occurs]
    exact looksUp_of_ready accessed
  · intro name lost
    rcases interpret_ending ready with finished | ⟨halt, halted, explained⟩
    · cases finished.symm.trans lost
    · cases halted.symm.trans lost
      cases explained

/-- A run after others is safe if the programs so far are compatible. -/
theorem safe_of_compatible {entries : List Entry} {entry : Entry}
    (clean : ∀ other ∈ entries ++ [entry], (parse other.text).errors = [])
    (compatible : Compatible ((entries ++ [entry]).map Entry.program)) (clock : Nat → Float)
    (output : Sink) :
    SafeRun ((entries ++ [entry]).map Entry.program)
      (((Interpreter.new clock output).enterAll entries).prepare entry) entry := by
  rw [List.map_append, List.map_singleton] at compatible ⊢
  have before := consistent_enterAll
    (fun other among => clean other (List.mem_append_left _ among))
    (compatible.subset (List.subset_append_left _ _)) clock output
  obtain ⟨prepared, ready⟩ :=
    before.enter (clean entry (List.mem_append_right _ List.mem_cons_self)) compatible
  exact prepared.safe (List.mem_append_right _ List.mem_cons_self) compatible ready

/-- All runs of a session without syntax errors are safe exactly if its programs are compatible. -/
theorem session_safe_iff {entries : List Entry}
    (clean : ∀ entry ∈ entries, (parse entry.text).errors = []) (clock : Nat → Float)
    (output : Sink) :
    Compatible (entries.map Entry.program) ↔
      ∀ ⦃earlier entry later⦄, entries = earlier ++ entry :: later →
        SafeRun ((earlier ++ [entry]).map Entry.program)
          (((Interpreter.new clock output).enterAll earlier).prepare entry) entry := by
  constructor
  · intro compatible earlier entry later split
    have met : earlier ++ [entry] ⊆ entries := by
      rw [split]
      simp
    exact safe_of_compatible (fun other among => clean other (met among))
      (compatible.subset (List.map_subset Entry.program met)) clock output
  · intro safe
    -- The last run meets all programs.
    rcases entries.eq_nil_or_concat with rfl | ⟨earlier, entry, same⟩
    · exact nofun
    · rw [List.concat_eq_append] at same
      subst same
      have last := (safe rfl).distances
      intro program among other amongToo target occurs twin inside same
      rw [← last among occurs, same]
      exact last amongToo inside

/-- A function of the first text is called in the second one, and both texts have an occurrence
with the number zero. -/
def sharingEntries : List Entry :=
  [⟨"fun f() \x7b var a = true; \x7b return a; \x7d \x7d", 100⟩,
    ⟨"\x7b var b; \x7b print b; \x7d print f(); \x7d", 100⟩]

/-- A session of programs that share numbers and are compatible. -/
theorem session_safe_iff_sharing :
    (∀ entry ∈ sharingEntries, (parse entry.text).errors = []) ∧
      SafeRun (sharingEntries.map Entry.program)
        (((Interpreter.new (fun _ => 0) .unlimited).enterAll [sharingEntries[0]]).prepare
          sharingEntries[1]) sharingEntries[1] := by
  have clean : ∀ entry ∈ sharingEntries, (parse entry.text).errors = [] := by decide +kernel
  have compatible : Compatible (sharingEntries.map Entry.program) := by decide +kernel
  have split : sharingEntries = [sharingEntries[0]] ++ sharingEntries[1] :: [] := rfl
  exact ⟨clean, (session_safe_iff clean (fun _ => 0) .unlimited).1 compatible split⟩

deriving instance DecidableEq for Evaluation.Halt, Ending

/-- A local variable of the first text and a global one of the second have occurrences with the
number zero. -/
def clashingEntries : List Entry :=
  [⟨"\x7b var a = 1; \x7b print a; \x7d \x7d", 100⟩, ⟨"var b = 2; print b;", 100⟩]

/-- Two texts without any errors of which the second one loses its scope. -/
theorem session_loses_scope :
    (∀ entry ∈ clashingEntries,
      (parse entry.text).errors = [] ∧ (resolve entry.program).errors = []) ∧
      (((Interpreter.new (fun _ => 0) .unlimited).enterAll [clashingEntries[0]]).enter
        clashingEntries[1]).1 = .halted (.lostScope "b") :=
  ⟨by decide +kernel, by decide +kernel⟩

end Lox
