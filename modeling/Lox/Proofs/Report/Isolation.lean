import Lox.Proofs.Layout.Boundaries
import Lox.Proofs.Output.Cut
import Lox.Proofs.Run.Phases

namespace Lox

open Evaluation (cutOutput extract_min extract_of_size_le write_cutOutput write_of_unlimited)

namespace Sink

/-- A sink with more contents. -/
def adding (text : String) (sink : Sink) : Sink :=
  { sink with contents := sink.contents ++ text.toUTF8 }

/-- A sink takes a text that ends before its limit. -/
def Takes (sink : Sink) (text : String) : Prop :=
  ∀ limit ∈ sink.limit, sink.contents.size + text.utf8ByteSize ≤ limit

@[simp] theorem adding_empty (sink : Sink) : sink.adding "" = sink := by
  simp [adding]

/-- Two texts are added one behind the other. -/
theorem adding_append (first second : String) (sink : Sink) :
    sink.adding (first ++ second) = (sink.adding first).adding second := by
  simp [adding, String.toByteArray_append, ByteArray.append_assoc]

variable {sink : Sink} {first second text : String}

/-- A sink without a limit has room for every text. -/
theorem Takes.of_unlimited (unlimited : sink.limit = none) (text : String) : sink.Takes text := by
  rw [Takes, unlimited]
  nofun

/-- A sink with room for two texts has room for the first one. -/
theorem Takes.left (takes : sink.Takes (first ++ second)) : sink.Takes first := by
  intro limit given
  have both := takes limit given
  rw [String.utf8ByteSize_append] at both
  omega

/-- A sink with room for two texts has room for the second one behind the first. -/
theorem Takes.right (takes : sink.Takes (first ++ second)) : (sink.adding first).Takes second := by
  intro limit given
  have both := takes limit given
  rw [String.utf8ByteSize_append] at both
  change (sink.contents ++ first.toUTF8).size + _ ≤ _
  rw [ByteArray.size_append]
  change sink.contents.size + first.utf8ByteSize + _ ≤ _
  omega

/-- A text for which there is room is written whole. -/
theorem write_of_takes (takes : sink.Takes text) : sink.write text = (true, sink.adding text) := by
  cases limited : sink.limit with
  | none => exact write_of_unlimited limited text
  | some limit =>
      have room : text.toUTF8.size ≤ limit - sink.contents.size :=
        Nat.le_sub_of_add_le' (takes limit limited)
      simp only [write, limited, if_pos room, adding]

theorem write_empty (sink : Sink) : (sink.write "").2 = sink := by
  obtain ⟨contents, limit, recovers⟩ := sink
  cases limit <;> simp [write]

/-- A sink that recovers takes what fits of a text that does not, and from then on everything. -/
theorem write_of_beyond {contents : ByteArray} {limit : Nat} (fits : contents.size ≤ limit)
    (beyond : limit < contents.size + text.utf8ByteSize) :
    (Sink.mk contents (some limit) true).write text =
      (false, ⟨(contents ++ text.toUTF8).extract 0 limit, none, true⟩) := by
  have room : ¬ text.toUTF8.size ≤ limit - contents.size := by
    change ¬ text.utf8ByteSize ≤ _
    omega
  have cut : (contents ++ text.toUTF8).extract 0 limit =
      contents ++ text.toUTF8.extract 0 (limit - contents.size) := by
    rw [ByteArray.extract_append, extract_of_size_le fits, Nat.zero_sub]
  simp only [write, if_neg room, if_true, cut]

/-- A cut output that is full stays as it is. -/
theorem write_of_full {limit : Nat} (full : limit ≤ sink.contents.size) (text : String) :
    ((cutOutput limit sink).write text).2 = cutOutput limit sink := by
  have none : limit - (sink.contents.extract 0 limit).size = 0 := by
    rw [ByteArray.size_extract]
    omega
  simp only [cutOutput, write, none]
  by_cases empty : text.toUTF8.size ≤ 0
  · have same : text.toUTF8 = .empty := ByteArray.size_eq_zero_iff.1 (Nat.le_zero.1 empty)
    rw [if_pos empty, same, ByteArray.append_empty]
  · rw [if_neg empty, ByteArray.extract_same, ByteArray.append_empty]
    rfl

/-- What is full has the same first bytes with more contents. -/
theorem cutOutput_adding {limit : Nat} (full : limit ≤ sink.contents.size) (text : String) :
    cutOutput limit (sink.adding text) = cutOutput limit sink := by
  have none : limit - sink.contents.size = 0 := Nat.sub_eq_zero_of_le full
  simp only [cutOutput, adding, ByteArray.extract_append, none, Nat.zero_sub,
    ByteArray.extract_same, ByteArray.append_empty]

end Sink

namespace Report

/-- The context of an error is the end of the source, the text of its span, or nothing. -/
inductive IsContext (source : Source) (span : Span) : String → Prop
  | atEnd (ends : source.text.utf8ByteSize ≤ span.start) : IsContext source span " at end"
  | lexeme {chars : List Char} (occupies : Text.Occupies source.chars span chars) :
      IsContext source span (" at '" ++ String.ofList chars ++ "'")
  | nothing (before : span.start < source.text.utf8ByteSize)
      (nowhere : ∀ chars, ¬ Text.Occupies source.chars span chars) : IsContext source span ""

/-- The line of an error has the number of the line on which its span starts, its context and its
message. -/
inductive IsLine (source : Source) (error : Located Error) : String → Prop
  | intro {context : String} (isContext : IsContext source error.span context) :
      IsLine source error
        ("[line " ++ toString (1 + (Text.startingBefore error.span.start source.chars).count '\n') ++
          "] Error" ++ context ++ ": " ++ error.item.message ++ "\n")

/-- The context that a notice gives is that of the span. -/
theorem contextOf_isContext (source : Source) (span : Span) :
    IsContext source span (contextOf source span) := by
  by_cases ends : source.text.utf8ByteSize ≤ span.start
  · rw [contextOf, if_pos ends]
    exact .atEnd ends
  have before : span.start < source.text.utf8ByteSize := Nat.lt_of_not_le ends
  by_cases somewhere : ∃ chars, Text.Occupies source.chars span chars
  · obtain ⟨chars, occupies⟩ := somewhere
    rw [contextOf_chars occupies]
    exact .lexeme occupies
  · have nowhere (chars : List Char) : ¬ Text.Occupies source.chars span chars := fun occupies =>
      somewhere ⟨chars, occupies⟩
    rw [contextOf, if_neg ends]
    split
    · exact .nothing before nowhere
    · exact .nothing before nowhere
    next chars empty given => exact absurd (Text.occupies_of_slice? empty given) (nowhere chars)

/-- The text of a notice is the line of its error. -/
theorem Notice.text_isLine (source : Source) (error : Located Error) :
    IsLine source error (Notice.of source error).text := by
  have line := IsLine.intro (contextOf_isContext source error.span)
  rw [← Text.lineNumber_eq] at line
  exact line

/-- The texts that are written for an error. -/
structure Wording where
  /-- The report, if nothing keeps it from being written. -/
  report : Located Error → String
  /-- What follows a report that could not be finished. -/
  afterFailure : Located Error → String

namespace Wording

/-- The complete reports of errors. -/
def texts (wording : Wording) (errors : List (Located Error)) : String :=
  String.join (errors.map wording.report)

/-- The sink after the report of an error. -/
def print (wording : Wording) (sink : Sink) (error : Located Error) : Sink :=
  match sink.write (wording.report error) with
  | (true, sink) => sink
  | (false, sink) => (sink.write (wording.afterFailure error)).2

/-- The sink after the reports of errors. -/
def prints (wording : Wording) (sink : Sink) (errors : List (Located Error)) : Sink :=
  errors.foldl wording.print sink

section
variable {wording : Wording} {sink : Sink} {error : Located Error} {errors : List (Located Error)}

theorem texts_cons (error : Located Error) (rest : List (Located Error)) :
    wording.texts (error :: rest) = wording.report error ++ wording.texts rest :=
  String.join_cons

/-- The texts of two lists of errors follow each other. -/
theorem texts_append (first second : List (Located Error)) :
    wording.texts (first ++ second) = wording.texts first ++ wording.texts second := by
  rw [texts, List.map_append, String.join_append]
  rfl

/-- A sink that takes a report has it in its contents. -/
theorem print_of_takes (takes : sink.Takes (wording.report error)) :
    wording.print sink error = sink.adding (wording.report error) := by
  rw [print, Sink.write_of_takes takes]

/-- A sink that takes the reports of all errors has them in its contents. -/
theorem prints_of_takes (takes : sink.Takes (wording.texts errors)) :
    wording.prints sink errors = sink.adding (wording.texts errors) := by
  induction errors generalizing sink with
  | nil => exact sink.adding_empty.symm
  | cons error rest ih =>
      rw [texts_cons] at takes ⊢
      rw [prints, List.foldl_cons, print_of_takes takes.left, ← prints, ih takes.right,
        Sink.adding_append]

/-- A report to a cut output is the report to the whole output, and cut. -/
theorem print_cutOutput (unlimited : sink.limit = none) (limit : Nat) :
    wording.print (cutOutput limit sink) error = cutOutput limit (wording.print sink error) := by
  rw [print_of_takes (.of_unlimited unlimited _)]
  rcases Nat.lt_or_ge limit sink.contents.size with full | fits
  · have same := Sink.write_of_full (Nat.le_of_lt full) (wording.report error)
    rw [Sink.cutOutput_adding (Nat.le_of_lt full), print]
    split
    all_goals
      rename_i written
      rw [written] at same
      subst same
    · rfl
    · exact Sink.write_of_full (Nat.le_of_lt full) _
  · rw [print, write_cutOutput unlimited fits, write_of_unlimited unlimited]
    by_cases within : sink.contents.size + (wording.report error).utf8ByteSize ≤ limit
    · rw [decide_eq_true within]
      rfl
    · rw [decide_eq_false within]
      refine Sink.write_of_full ?_ _
      change _ ≤ (sink.contents ++ (wording.report error).toUTF8).size
      rw [ByteArray.size_append]
      exact Nat.le_of_not_ge within

/-- A cut output takes the first bytes of what the whole output takes. -/
theorem prints_cutOutput (unlimited : sink.limit = none) (limit : Nat)
    (errors : List (Located Error)) :
    wording.prints (cutOutput limit sink) errors =
      cutOutput limit (wording.prints sink errors) := by
  induction errors generalizing sink with
  | nil => rfl
  | cons error rest ih =>
      have taken : (wording.print sink error).limit = none := by
        rw [print_of_takes (.of_unlimited unlimited _)]
        exact unlimited
      rw [prints, List.foldl_cons, print_cutOutput unlimited, ← prints, ih taken]
      rfl

/-- A sink that recovers takes what fits of the report that does not fit, and then what follows a
failure. -/
theorem print_of_beyond {contents : ByteArray} {limit : Nat} (fits : contents.size ≤ limit)
    (beyond : limit < contents.size + (wording.report error).utf8ByteSize) :
    wording.print ⟨contents, some limit, true⟩ error =
      ⟨(contents ++ (wording.report error).toUTF8).extract 0 limit ++
        (wording.afterFailure error).toUTF8, none, true⟩ := by
  rw [print, Sink.write_of_beyond fits beyond]
  exact congrArg Prod.snd (write_of_unlimited rfl _)

/-- The first report that ends beyond a limit. -/
theorem exists_beyond (errors : List (Located Error)) {limit : Nat}
    (beyond : limit < (wording.texts errors).utf8ByteSize) :
    ∃ before error after, errors = before ++ error :: after ∧
      (wording.texts before).utf8ByteSize ≤ limit ∧
      limit < (wording.texts (before ++ [error])).utf8ByteSize := by
  induction errors generalizing limit with
  | nil => exact absurd beyond (Nat.not_lt_zero limit)
  | cons first rest ih =>
      rw [texts_cons, String.utf8ByteSize_append] at beyond
      by_cases within : (wording.report first).utf8ByteSize ≤ limit
      · obtain ⟨before, error, after, rfl, fits, exceeds⟩ :=
          ih (Nat.sub_lt_left_of_lt_add within beyond)
        refine ⟨first :: before, error, after, rfl, ?_, ?_⟩
        · rw [texts_cons, String.utf8ByteSize_append]
          omega
        · rw [List.cons_append, texts_cons, String.utf8ByteSize_append]
          omega
      · refine ⟨[], first, rest, rfl, Nat.zero_le limit, ?_⟩
        rw [List.nil_append, texts_cons, String.utf8ByteSize_append]
        omega

/-- The first bytes of the reports lie in those up to the first one that does not fit. -/
theorem extract_texts {before after : List (Located Error)} {limit : Nat}
    (beyond : limit < (wording.texts before).utf8ByteSize + (wording.report error).utf8ByteSize) :
    (wording.texts (before ++ error :: after)).toUTF8.extract 0 limit =
      ((wording.texts before).toUTF8 ++ (wording.report error).toUTF8).extract 0 limit := by
  have none : limit -
      ((wording.texts before).toByteArray ++ (wording.report error).toByteArray).size = 0 := by
    rw [ByteArray.size_append]
    exact Nat.sub_eq_zero_of_le (Nat.le_of_lt beyond)
  rw [texts_append, texts_cons, ← String.append_assoc]
  simp only [String.toUTF8_eq_toByteArray, String.toByteArray_append]
  rw [ByteArray.extract_append, none, Nat.zero_sub, ByteArray.extract_same, ByteArray.append_empty]

/-- A recovered sink has room for what fits its limit. -/
theorem recovering_takes {text : String} {limit : Nat} (fits : text.utf8ByteSize ≤ limit) :
    (Sink.recovering limit).Takes text := by
  rintro _ ⟨⟩
  exact Nat.le_trans (Nat.le_of_eq (Nat.zero_add _)) fits

theorem recovering_adding (limit : Nat) (text : String) :
    (Sink.recovering limit).adding text = ⟨text.toUTF8, some limit, true⟩ :=
  congrArg (fun contents => Sink.mk contents _ _) ByteArray.empty_append

/-- What a sink that recovers holds of the reports if one of them does not fit: the bytes up to the
limit, what follows the spoilt report, and all later reports. -/
theorem prints_recovering {before after : List (Located Error)} {limit : Nat}
    (fits : (wording.texts before).utf8ByteSize ≤ limit)
    (beyond : limit < (wording.texts (before ++ [error])).utf8ByteSize) :
    (wording.prints (.recovering limit) (before ++ error :: after)).contents =
      (wording.texts (before ++ error :: after)).toUTF8.extract 0 limit ++
        (wording.afterFailure error).toUTF8 ++ (wording.texts after).toUTF8 := by
  have single : wording.texts [error] = wording.report error :=
    (texts_cons error []).trans String.append_empty
  rw [texts_append, single, String.utf8ByteSize_append] at beyond
  have first : wording.prints (.recovering limit) before =
      ⟨(wording.texts before).toUTF8, some limit, true⟩ :=
    (prints_of_takes (recovering_takes fits)).trans (recovering_adding limit _)
  have run : wording.prints (.recovering limit) (before ++ error :: after) =
      wording.prints (wording.print (wording.prints (.recovering limit) before) error) after :=
    List.foldl_append
  have spoilt : wording.print ⟨(wording.texts before).toUTF8, some limit, true⟩ error =
      ⟨((wording.texts before).toUTF8 ++ (wording.report error).toUTF8).extract 0 limit ++
        (wording.afterFailure error).toUTF8, none, true⟩ := print_of_beyond fits beyond
  rw [run, first, spoilt, prints_of_takes (.of_unlimited rfl _), extract_texts beyond]
  rfl

end

end Wording

/-- Reports are written as lines or as snippets. -/
inductive Style where
  | lines
  | snippets

namespace Style

variable {render : Source → Located Error → String}

/-- The reporter that writes to a sink in this style. -/
def writing (render : Source → Located Error → String) : Style → Sink → ReporterOf render
  | lines, sink => .lines sink
  | snippets, sink => .snippets sink

/-- Nothing follows a line that could not be finished, and a line follows such a snippet. -/
def wording (snippet line : Located Error → String) : Style → Wording
  | lines => ⟨line, fun _ => ""⟩
  | snippets => ⟨snippet, line⟩

/-- What is written when errors are reported one after another to new diagnostics. -/
def printed (style : Style) (render : Source → Located Error → String) (source : Source)
    (sink : Sink) (errors : List (Located Error)) : ByteArray :=
  Command.written ((DiagnosticsOf.new source (style.writing render sink)).reportAll errors).reporter

/-- The texts that reporters write for the errors of a source. -/
def wordingOf (style : Style) (render : Source → Located Error → String) (source : Source) :
    Wording :=
  style.wording (render source) fun error => (Notice.of source error).text

section
variable {style : Style} {source : Source}

/-- A report leaves the reporter with what is written for the error. -/
theorem report_writing (sink : Sink) (error : Located Error) :
    (style.writing render sink).report source error =
      style.writing render ((style.wordingOf render source).print sink error) := by
  cases style with
  | lines =>
      simp only [writing, ReporterOf.report, wordingOf, wording, Wording.print, Sink.write_empty]
      split <;> simp_all only
  | snippets =>
      simp only [writing, ReporterOf.report, wordingOf, wording, Wording.print]
      split <;> simp_all only

/-- What is printed are the contents of the sink after the reports. -/
theorem printed_eq (sink : Sink) (errors : List (Located Error)) :
    style.printed render source sink errors =
      ((style.wordingOf render source).prints sink errors).contents := by
  have reporter :
      ((DiagnosticsOf.new source (style.writing render sink)).reportAll errors).reporter =
        style.writing render ((style.wordingOf render source).prints sink errors) := by
    rw [DiagnosticsOf.reportAll_reporter]
    change errors.foldl (fun reporter error => reporter.report source error)
      (style.writing render sink) = _
    induction errors generalizing sink with
    | nil => rfl
    | cons error rest ih =>
        rw [List.foldl_cons, report_writing, ih, Wording.prints, Wording.prints, List.foldl_cons]
  rw [printed, reporter]
  cases style <;> rfl

/-- Without a limit, the texts of all errors are written. -/
theorem printed_unlimited (errors : List (Located Error)) :
    style.printed render source .unlimited errors =
      ((style.wordingOf render source).texts errors).toUTF8 := by
  rw [printed_eq, Wording.prints_of_takes (.of_unlimited rfl _)]
  exact ByteArray.empty_append

theorem size_printed_unlimited (errors : List (Located Error)) :
    (style.printed render source .unlimited errors).size =
      ((style.wordingOf render source).texts errors).utf8ByteSize :=
  congrArg ByteArray.size (printed_unlimited errors)

end

/-- What reports come to when the sink fails after a number of bytes. The flags do not change, a
sink that stays broken holds the first bytes, and a sink that recovers misses only the end of one
report, of which it holds the line instead. -/
structure Isolates (style : Style) (render : Source → Located Error → String) (source : Source)
    (line : Located Error → String) (errors : List (Located Error)) (limit : Nat) : Prop where
  flags : ∀ (sink : Sink) (count : Nat),
    let reported :=
      (DiagnosticsOf.new source (style.writing render sink)).reportAll (errors.take count)
    let whole :=
      (DiagnosticsOf.new source (style.writing render .unlimited)).reportAll (errors.take count)
    reported.hadError = whole.hadError ∧ reported.hadRuntimeError = whole.hadRuntimeError
  whole : style.printed render source .unlimited errors =
    ((style.wording (render source) line).texts errors).toUTF8
  fits : (style.printed render source .unlimited errors).size ≤ limit →
    style.printed render source (.limited limit) errors =
        style.printed render source .unlimited errors ∧
      style.printed render source (.recovering limit) errors =
        style.printed render source .unlimited errors
  cut : style.printed render source (.limited limit) errors =
    (style.printed render source .unlimited errors).extract 0 limit
  breaks : limit < (style.printed render source .unlimited errors).size →
    ∃ before error after, errors = before ++ error :: after ∧
      (style.printed render source .unlimited before).size ≤ limit ∧
      limit < (style.printed render source .unlimited (before ++ [error])).size
  resumes : ∀ before error after, errors = before ++ error :: after →
    (style.printed render source .unlimited before).size ≤ limit →
    limit < (style.printed render source .unlimited (before ++ [error])).size →
    style.printed render source (.recovering limit) errors =
      (style.printed render source .unlimited errors).extract 0 limit ++
        ((style.wording (render source) line).afterFailure error).toUTF8 ++
          style.printed render source .unlimited after

/-- Both styles keep a failed write to its own report. -/
theorem isolates (style : Style) (source : Source) (errors : List (Located Error)) (limit : Nat) :
    style.Isolates render source (fun error => (Notice.of source error).text) errors limit := by
  have cut : style.printed render source (.limited limit) errors =
      (style.printed render source .unlimited errors).extract 0 limit := by
    have empty : cutOutput limit .unlimited = .limited limit := by
      simp [cutOutput, Sink.unlimited, Sink.limited]
    rw [printed_eq, ← empty, Wording.prints_cutOutput rfl, printed_eq]
    rfl
  refine ⟨fun sink count => ⟨?_, ?_⟩, printed_unlimited errors, fun fits => ⟨?_, ?_⟩, cut,
    fun beyond => ?_, ?_⟩
  · rw [DiagnosticsOf.reportAll_hadError, DiagnosticsOf.reportAll_hadError]
    rfl
  · rw [DiagnosticsOf.reportAll_hadRuntimeError, DiagnosticsOf.reportAll_hadRuntimeError]
    rfl
  · rw [cut, extract_of_size_le fits]
  · rw [size_printed_unlimited] at fits
    rw [printed_eq, printed_unlimited, Wording.prints_of_takes (Wording.recovering_takes fits),
      Wording.recovering_adding]
  · rw [size_printed_unlimited] at beyond
    simp only [size_printed_unlimited]
    exact Wording.exists_beyond errors beyond
  · rintro before error after rfl fits beyond
    rw [size_printed_unlimited] at fits beyond
    rw [printed_eq, printed_unlimited, printed_unlimited, Wording.prints_recovering fits beyond]
    rfl

end Style

end Report

open Report

/-- A run whose phases give their errors to diagnostics as soon as they find them. -/
def runReporting {ρ : Type} [Reporting ρ] (fuel : Nat) (clock : Nat → Float) (output : Sink)
    (text : String) (diagnostics : DiagnosticsOf ρ) : Sink × DiagnosticsOf ρ :=
  let parsed := parse text
  if parsed.errors.isEmpty then
    let (interpreter, errors) := (Interpreter.new clock output).resolve parsed.program
    let diagnostics := diagnostics.reportAll errors
    let (ending, interpreter) := interpreter.interpret fuel parsed.program
    (interpreter.output, diagnostics.reportAll ending.error?.toList)
  else (output, diagnostics.reportAll parsed.errors)

/-- Diagnostics only take the errors of a run. -/
theorem runReporting_eq {ρ : Type} [Reporting ρ] (fuel : Nat) (clock : Nat → Float) (output : Sink)
    (text : String) (diagnostics : DiagnosticsOf ρ) :
    runReporting fuel clock output text diagnostics =
      ((run fuel clock output text).output,
        diagnostics.reportAll (run fuel clock output text).errors) := by
  dsimp only [runReporting, run]
  split
  · exact congrArg (Prod.mk _) (DiagnosticsOf.reportAll_append _ _ _).symm
  · rfl

/-- Whatever is rendered for errors, a sink that fails spoils only the report that it fails in, and
neither the flags nor what the program prints depend on it. -/
theorem report_isolatesFailures (render : Source → Located Error → String) (style : Style)
    (source : Source) :
    ∃ line : Located Error → String, (∀ error, IsLine source error (line error)) ∧
      (∀ errors limit, style.Isolates render source line errors limit) ∧
      ∀ fuel clock output text (diagnostics : DiagnosticsOf (ReporterOf render)),
        runReporting fuel clock output text diagnostics =
          ((run fuel clock output text).output,
            diagnostics.reportAll (run fuel clock output text).errors) :=
  ⟨_, Notice.text_isLine source, style.isolates source, fun fuel clock output text diagnostics =>
    runReporting_eq fuel clock output text diagnostics⟩

end Lox
