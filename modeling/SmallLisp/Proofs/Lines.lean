import SmallLisp.Console.Prompt
import SmallLisp.Proofs.Backlog
import SmallLisp.Proofs.Concatenation
import SmallLisp.Proofs.RoundTrip
/-!
# Programs line by line

The lines of a program may be run as one script, or typed one after the other at the prompt. Both do
what the lines do if each one is evaluated in the state that the lines before it left
(`Interpreter.steps`). For a script this is a matter of reading: a text of several lines has the forms of
its lines (`eval_intercalate`). The prompt takes away what was printed after every line, which makes no
difference to the lines that follow (`takeLine_quiet`).
-/

namespace SmallLisp

/-! ### One line after the other -/

/-- A line and the interpreter that evaluates it. -/
structure Step where
  before : Interpreter
  line : String

namespace Step

def result (s : Step) : Except Failure Value :=
  (s.before.eval s.line).1

def after (s : Step) : Interpreter :=
  (s.before.eval s.line).2

def printed (s : Step) : String :=
  Console.lines (s.after.machine.output.toList.drop s.before.machine.output.size)

def echo (s : Step) : String :=
  if Text.isBlankText s.line then ""
  else
    match s.result with
    | .ok v => v.display ++ "\n"
    | .error _ => ""

def Succeeds (s : Step) : Prop :=
  ∃ v, s.result = .ok v

def printedAll (steps : List Step) : String :=
  String.join (steps.map printed)

/-- What lines print, each one with its value. -/
def shownAll (steps : List Step) : String :=
  String.join (steps.map fun s => s.printed ++ s.echo)

end Step

namespace Interpreter

/-- The lines, each one with the state that the lines before it left. -/
def steps (ip : Interpreter) : List String → List Step
  | [] => []
  | line :: rest => ⟨ip, line⟩ :: steps (ip.eval line).2 rest

def afterAll (ip : Interpreter) (lines : List String) : Interpreter :=
  lines.foldl (fun ip line => (ip.eval line).2) ip

/-- The last line is taken by the interpreter that all lines before have left. -/
theorem steps_append (ip : Interpreter) (done : List String) (line : String) :
    ip.steps (done ++ [line]) = ip.steps done ++ [⟨ip.afterAll done, line⟩] := by
  induction done generalizing ip with
  | nil => rfl
  | cons first done ih => simp only [List.cons_append, steps, ih, afterAll, List.foldl_cons]

theorem afterAll_append (ip : Interpreter) (done : List String) (line : String) :
    ip.afterAll (done ++ [line]) = (⟨ip.afterAll done, line⟩ : Step).after := by
  simp only [afterAll, List.foldl_append, List.foldl_cons, List.foldl_nil]
  rfl

/-- A text without forms does nothing. -/
theorem eval_of_no_forms (ip : Interpreter) {source : String}
    (h : Datum.parseForms source = .ok []) : ip.eval source = (.ok .null, ip) := by
  rw [ip.eval_of_parseForms h]
  rfl

end Interpreter

open Interpreter

/-- What the console trims as blank the lexer skips, so an empty line is an empty program. -/
theorem lead_of_isBlank {c : Char} (h : Text.isBlank c = true) : Token.lead c = .blank := by
  unfold Token.lead
  split
  all_goals first
    | rw [if_pos h]
    | cases h

/-- White space holds no forms. -/
theorem parseForms_of_isBlankText {line : String} (h : Text.isBlankText line = true) :
    Datum.parseForms line = .ok [] := by
  have hblank : ∀ c ∈ line.toList, Token.lead c = .blank := by
    intro c hc
    exact lead_of_isBlank (List.all_eq_true.mp h c hc)
  have htokens : Token.tokenize line = .ok [] := Datum.tokenizeFrom_blanks hblank #[]
  rw [Datum.parseForms, htokens]
  rfl

namespace Step

/-- A line adds what it prints to what was printed before, and prints the same if that was taken
away. -/
theorem output_after (s : Step) :
    s.after.machine.output =
      s.before.machine.output ++ (s.before.quiet.eval s.line).2.machine.output := by
  rw [after, eval_eq_behind]
  rfl

/-- What a line prints does not depend on what was printed before. -/
theorem printed_eq (s : Step) :
    s.printed = Console.lines (s.before.quiet.eval s.line).2.machine.output.toList := by
  rw [printed, output_after]
  simp

/-- A line with a form is not blank, so its value is shown. -/
theorem echo_of_ok (s : Step) {v : Value} (h : s.result = .ok v)
    (hforms : Datum.parseForms s.line ≠ .ok []) : s.echo = v.display ++ "\n" := by
  have hblank : ¬ Text.isBlankText s.line = true := fun hblank =>
    hforms (parseForms_of_isBlankText hblank)
  rw [echo, if_neg hblank, h]

/-- A line that fails has a form. -/
theorem parseForms_ne_nil_of_error (s : Step) {e : Failure} (h : s.result = .error e) :
    Datum.parseForms s.line ≠ .ok [] := by
  intro hforms
  rw [result, eval_of_no_forms _ hforms] at h
  cases h

end Step

theorem Console.lines_append (texts more : List String) :
    lines (texts ++ more) = lines texts ++ lines more := by
  simp [lines]

/-- The output of the whole session is that of its lines in a row. -/
theorem lines_output_afterAll (ip : Interpreter) (lines : List String) :
    Console.lines (ip.afterAll lines).machine.output.toList =
      Console.lines ip.machine.output.toList ++ Step.printedAll (ip.steps lines) := by
  induction lines generalizing ip with
  | nil => simp [afterAll, steps, Step.printedAll]
  | cons line rest ih =>
    have hstep : Console.lines (ip.eval line).2.machine.output.toList =
        Console.lines ip.machine.output.toList ++ (⟨ip, line⟩ : Step).printed := by
      rw [Step.printed_eq, ← Console.lines_append, ← Array.toList_append]
      exact congrArg (fun output => Console.lines output.toList) (Step.output_after ⟨ip, line⟩)
    show Console.lines ((ip.eval line).2.afterAll rest).machine.output.toList = _
    rw [ih, hstep]
    simp [steps, Step.printedAll, String.append_assoc]

/-! ### The prompt -/

namespace Console

/-- What the prompt does with a line, whatever was printed before. -/
theorem takeLine_quiet (s : Step) :
    takeLine s.before.quiet s.line =
      match s.result with
      | .ok _ => { interpreter := s.after.quiet, stdout := s.printed ++ s.echo }
      | .error (.fault (.exit status)) =>
        { interpreter := s.after.quiet, stdout := s.printed, leave := some status }
      | .error e =>
        { interpreter := s.after.quiet
          stdout := s.printed
          stderr := failureLine e
          missing := missingModule e } := by
  by_cases hblank : Text.isBlankText s.line
  · -- the prompt skips the line, and to evaluate it would change nothing
    have hforms := parseForms_of_isBlankText hblank
    have hresult : s.result = .ok .null := by rw [Step.result, eval_of_no_forms _ hforms]
    have hafter : s.after = s.before := by rw [Step.after, eval_of_no_forms _ hforms]
    have hprinted : s.printed = "" := by
      rw [Step.printed_eq, eval_of_no_forms _ hforms]
      rfl
    simp [takeLine, hblank, hresult, hafter, hprinted, Step.echo]
  · have hresult : s.result = (s.before.quiet.eval s.line).1 := by rw [Step.result, eval_eq_behind]
    have hafter : s.after.quiet = (s.before.quiet.eval s.line).2.quiet := by
      rw [Step.after, eval_eq_behind, quiet_behind]
    have hprinted := s.printed_eq
    have hecho : s.echo = match s.result with
        | .ok v => v.display ++ "\n"
        | .error _ => "" := by
      rw [Step.echo, if_neg hblank]
    rw [takeLine, if_neg hblank, hafter, hprinted, hecho, hresult]
    generalize s.before.quiet.eval s.line = run
    obtain ⟨result, after⟩ := run
    cases result with
    | ok v => simp [quiet, drain, String.append_assoc]
    | error e =>
      cases e with
      | fault f => cases f <;> rfl
      | _ => rfl

/-- What was reported before the first line does not matter. -/
theorem takeLines_quiet {ip : Interpreter} (h : ip.machine.output = #[]) (stdout stderr : String)
    (lines : List String) :
    takeLines ip stdout stderr lines = takeLines ip.quiet stdout stderr lines := by
  induction lines with
  | nil => rfl
  | cons line rest ih =>
    by_cases hblank : Text.isBlankText line
    · simp only [takeLines, takeLine, hblank, if_true]
      simpa using ih
    · -- the line takes away what was reported
      have hturn : takeLine ip line = takeLine ip.quiet line := by
        rw [takeLine, takeLine, if_neg hblank, if_neg hblank, ip.eval_eq_behind, h]
        simp [drain, Interpreter.behind, Machine.behind]
      simp only [takeLines, hturn]

variable {s : Step} (stdout stderr : String) (rest : List String)

/-- A line that gives a value is echoed and the next one is taken. -/
theorem takeLines_cons_of_ok {v : Value} (h : s.result = .ok v) :
    takeLines s.before.quiet stdout stderr (s.line :: rest) =
      takeLines s.after.quiet (stdout ++ (s.printed ++ s.echo)) stderr rest := by
  have hturn := takeLine_quiet s
  rw [h] at hturn
  simp only [takeLines, hturn, String.append_empty]

/-- An exit ends the session with its status and takes no further line. -/
theorem takeLines_cons_of_exit {status : UInt8} (h : s.result = .error (.fault (.exit status))) :
    takeLines s.before.quiet stdout stderr (s.line :: rest) =
      { status, stdout := stdout ++ s.printed, stderr } := by
  have hturn := takeLine_quiet s
  rw [h] at hturn
  simp only [takeLines, hturn, String.append_empty]

/-- Any other failure is reported and the session goes on with the machine as the line left it. -/
theorem takeLines_cons_of_error {e : Failure} (h : s.result = .error e)
    (he : ∀ status, e ≠ .fault (.exit status)) :
    takeLines s.before.quiet stdout stderr (s.line :: rest) =
      takeLines s.after.quiet (stdout ++ s.printed) (stderr ++ failureLine e) rest := by
  have hturn := takeLine_quiet s
  rw [h] at hturn
  split at hturn
  · next heq => cases heq
  · next status heq =>
    cases heq
    exact absurd rfl (he status)
  · next heq =>
    cases heq
    simp only [takeLines, hturn]

/-- Lines that succeed leave their output, their values and their state. -/
theorem takeLines_append {ip : Interpreter} {done : List String}
    (h : ∀ s ∈ ip.steps done, s.Succeeds) :
    takeLines ip.quiet stdout stderr (done ++ rest) =
      takeLines (ip.afterAll done).quiet (stdout ++ Step.shownAll (ip.steps done)) stderr rest := by
  induction done generalizing ip stdout with
  | nil => simp [steps, Step.shownAll, afterAll]
  | cons line done ih =>
    obtain ⟨⟨v, hv⟩, hdone⟩ := List.forall_mem_cons.mp h
    have hline := takeLines_cons_of_ok stdout stderr (done ++ rest) hv
    rw [List.cons_append, hline]
    show takeLines (ip.eval line).2.quiet _ stderr (done ++ rest) = _
    rw [ih _ hdone]
    simp [steps, afterAll, Step.shownAll, String.append_assoc]

end Console

/-! ### Scripts -/

def Parses (source : String) : Prop :=
  ∃ forms, Datum.parseForms source = .ok forms

/-- A program in several lines has no form only if none of the lines has one. -/
theorem parses_intercalate {lines : List String} (h : ∀ line ∈ lines, Parses line) :
    ∃ forms, Datum.parseForms ("\n".intercalate lines) = .ok forms ∧
      (forms = [] → ∀ line ∈ lines, Datum.parseForms line = .ok []) := by
  induction lines with
  | nil => exact ⟨[], parseForms_of_isBlankText rfl, fun _ => nofun⟩
  | cons line rest ih =>
    obtain ⟨⟨forms, hforms⟩, hrest⟩ := List.forall_mem_cons.mp h
    cases rest with
    | nil =>
      rw [String.intercalate_singleton]
      refine ⟨forms, hforms, ?_⟩
      rintro rfl
      simpa using hforms
    | cons next rest =>
      obtain ⟨more, hmore, hnone⟩ := ih hrest
      refine ⟨forms ++ more, ?_, ?_⟩
      · rw [String.intercalate_cons_cons, Datum.parseForms_append_newline hforms, hmore]
        rfl
      · intro hempty
        obtain ⟨rfl, rfl⟩ := List.append_eq_nil_iff.mp hempty
        exact List.forall_mem_cons.mpr ⟨hforms, hnone rfl⟩

/-- **A script ends like the line that decides it**: the first one that fails, or else the last one. -/
theorem eval_intercalate {ip : Interpreter} {done rest : List String} {line : String}
    (hparses : ∀ l ∈ done ++ line :: rest, Parses l) (hdone : ∀ s ∈ ip.steps done, s.Succeeds)
    (hline : Datum.parseForms line ≠ .ok [])
    (hend : rest = [] ∨ ∃ e, (⟨ip.afterAll done, line⟩ : Step).result = .error e) :
    ip.eval ("\n".intercalate (done ++ line :: rest)) =
      ((⟨ip.afterAll done, line⟩ : Step).result, (⟨ip.afterAll done, line⟩ : Step).after) := by
  induction done generalizing ip with
  | nil =>
    cases rest with
    | nil =>
      rw [List.nil_append, String.intercalate_singleton]
      rfl
    | cons next rest =>
      -- the line fails, so the others are read but not evaluated
      obtain ⟨e, he⟩ := hend.resolve_left (List.cons_ne_nil _ _)
      obtain ⟨⟨forms, hforms⟩, hrest⟩ := List.forall_mem_cons.mp hparses
      obtain ⟨more, hmore, -⟩ := parses_intercalate hrest
      rw [List.nil_append, String.intercalate_cons_cons, ip.eval_append_newline hforms hmore]
      have hfails : ip.eval line = (.error e, (ip.eval line).2) := Prod.ext he rfl
      rw [hfails]
      exact Prod.ext he.symm rfl
  | cons first done ih =>
    rw [List.cons_append] at hparses ⊢
    obtain ⟨⟨v, hv⟩, hdone⟩ := List.forall_mem_cons.mp hdone
    obtain ⟨⟨forms, hforms⟩, hrest⟩ := List.forall_mem_cons.mp hparses
    obtain ⟨more, hmore, hnone⟩ := parses_intercalate hrest
    -- there is a form further on, so the value of the first line is dropped
    have hnonempty : more.isEmpty = false := by
      rw [List.isEmpty_eq_false_iff]
      rintro rfl
      exact hline (hnone rfl line (by simp))
    have hfirst : ip.eval first = (.ok v, (ip.eval first).2) := Prod.ext hv rfl
    rw [String.intercalate_cons_of_ne_nil (by simp), ip.eval_append_newline hforms hmore, hfirst]
    simp only [hnonempty]
    exact ih hrest hdone hend

namespace Console

/-- Whether the command line is asked to run a text, from a file or from the standard input. -/
def RunsText (arguments : Arguments) (files : Files) (stdin : ByteArray) (source : String) : Prop :=
  match arguments.command with
  | .stdin => stdin = source.toUTF8
  | .run path => files path = .ok source.toUTF8
  | .parse _ | .lex _ => False

def fresh (arguments : Arguments) (files : Files) : Interpreter :=
  .new { maxDepth := arguments.maxDepth } (readModule files)

/-- What the command line answers to a text. The log is empty unless it was asked for. -/
theorem respond_of_runsText {arguments : Arguments} {files : Files} {stdin : ByteArray}
    {source : String} (h : RunsText arguments files stdin source) :
    ∃ log, (arguments.verbosity = 0 → log = "") ∧
      respond arguments files stdin =
        match (fresh arguments files).eval source with
        | (.ok v, ip) =>
          { status := 0
            stdout := lines ip.machine.output.toList ++ (v.display ++ "\n")
            stderr := log }
        | (.error e, ip) =>
          { status := failureStatus e
            stdout := lines ip.machine.output.toList
            stderr := log ++ failureReport e
            missing := missingModule e } := by
  obtain ⟨origin, hrespond⟩ : ∃ origin, respond arguments files stdin =
      runProgram arguments files origin (.ok source.toUTF8) := by
    obtain ⟨command, maxDepth, verbosity⟩ := arguments
    cases command with
    | stdin =>
      obtain rfl : stdin = source.toUTF8 := h
      exact ⟨.stdin, rfl⟩
    | run path =>
      have hfile : files path = .ok source.toUTF8 := h
      refine ⟨.script path, ?_⟩
      simp only [respond, hfile]
      rfl
    | parse path => cases h
    | lex path => cases h
  have hfresh : Interpreter.new { maxDepth := arguments.maxDepth } (readModule files) =
      fresh arguments files := rfl
  have hrun : (fresh arguments files).run source.toUTF8 = (fresh arguments files).eval source := by
    simp only [Interpreter.run, fromUTF8?_toUTF8]
  simp only [hrespond, runProgram, hfresh, hrun]
  generalize (fresh arguments files).eval source = run
  obtain ⟨result, ip⟩ := run
  refine ⟨logText arguments.verbosity
    (.starting origin arguments.maxDepth :: ip.machine.events.toList), ?_, ?_⟩
  · intro hzero
    rw [hzero]
    rfl
  · cases result with
    | ok v => simp only [String.append_assoc]
    | error e => rfl

/-- What a failure is called goes with the exit status, and only the limit is fatal. -/
theorem failureLine_and_status {e : Failure} (he : ∀ status, e ≠ .fault (.exit status)) :
    failureReport e = failureLine e ∧
      ((∃ limit, e = .fault (.recursionLimit limit)) ∧
          failureLine e = "Fatal -- " ++ e.message ++ "\n" ∧ failureStatus e = 2 ∨
        (∀ limit, e ≠ .fault (.recursionLimit limit)) ∧
          failureLine e = "Error -- " ++ e.message ++ "\n" ∧ failureStatus e = 1) := by
  cases e with
  | fault f =>
    cases f with
    | exit status => exact absurd rfl (he status)
    | recursionLimit limit => exact ⟨rfl, .inl ⟨⟨limit, rfl⟩, rfl, rfl⟩⟩
    | _ => exact ⟨rfl, .inr ⟨nofun, rfl, rfl⟩⟩
  | _ => exact ⟨rfl, .inr ⟨nofun, rfl, rfl⟩⟩

/-- The output of a script is that of its lines. -/
theorem lines_output_after (arguments : Arguments) (files : Files) (done : List String)
    (line : String) :
    let last : Step := ⟨(fresh arguments files).afterAll done, line⟩
    lines last.after.machine.output.toList =
      Step.printedAll ((fresh arguments files).steps done) ++ last.printed := by
  intro last
  have houtput := lines_output_afterAll (fresh arguments files) (done ++ [line])
  have hfresh : lines (fresh arguments files).machine.output.toList = "" := rfl
  rw [afterAll_append, hfresh, steps_append] at houtput
  simpa [Step.printedAll, last] using houtput

section

variable {arguments : Arguments} {files : Files} {stdin : ByteArray} {done rest : List String}
  {line : String} (hparses : ∀ l ∈ done ++ line :: rest, Parses l)
  (hscript : RunsText arguments files stdin ("\n".intercalate (done ++ line :: rest)))
  (hdone : ∀ s ∈ (fresh arguments files).steps done, s.Succeeds)
include hparses hscript hdone

/-- What a script answers if all of its lines succeed and there is a form in the last one. -/
theorem respond_of_last {v : Value} (hrest : rest = []) (hline : Datum.parseForms line ≠ .ok []) :
    let last : Step := ⟨(fresh arguments files).afterAll done, line⟩
    last.result = .ok v → ∃ log,
      respond arguments files stdin =
        { status := 0
          stdout := Step.printedAll ((fresh arguments files).steps done) ++ (last.printed ++ last.echo)
          stderr := log } := by
  intro last hv
  obtain ⟨log, -, hrespond⟩ := respond_of_runsText hscript
  have hecho : last.echo = v.display ++ "\n" := last.echo_of_ok hv hline
  rw [eval_intercalate hparses hdone hline (.inl hrest), hv] at hrespond
  simp only [lines_output_after] at hrespond
  exact ⟨log, by rw [hrespond, hecho, String.append_assoc]⟩

/-- What a script answers if one of its lines fails and those before it succeed. -/
theorem respond_of_failing {e : Failure} :
    let failing : Step := ⟨(fresh arguments files).afterAll done, line⟩
    failing.result = .error e → ∃ log, (arguments.verbosity = 0 → log = "") ∧
      respond arguments files stdin =
        { status := failureStatus e
          stdout := Step.printedAll ((fresh arguments files).steps done) ++ failing.printed
          stderr := log ++ failureReport e
          missing := missingModule e } := by
  intro failing he
  obtain ⟨log, hlog, hrespond⟩ := respond_of_runsText hscript
  have hline : Datum.parseForms line ≠ .ok [] := failing.parseForms_ne_nil_of_error he
  rw [eval_intercalate hparses hdone hline (.inr ⟨e, he⟩), he] at hrespond
  simp only [lines_output_after] at hrespond
  exact ⟨log, hlog, hrespond⟩

end

end Console

open Console Step in
/-- **A script does what its lines do at the prompt.** Take lines that are programs, each of them
evaluated in the state that those before it left, and the script that consists of them. If all lines
succeed and there is a form in the last one, the script prints what the prompt prints but for the values
of the other lines. If a line leaves on purpose, script and prompt end with its status. If it fails in
another way, the script ends with the report that the prompt makes of that line, which is about a fatal
failure only at the limit of nested evaluations; and the prompt goes on with the next line from the
state that the failing one left. -/
theorem script_agrees_with_prompt {arguments : Arguments} {files : Files} {stdin : ByteArray}
    {lines : List String} (hparses : ∀ line ∈ lines, Parses line)
    (hscript : RunsText arguments files stdin ("\n".intercalate lines)) :
    let start := fresh arguments files
    let script := respond arguments files stdin
    let typed := takeLines start "" greeting lines
    (∀ input, inputLines input = lines → prompt arguments.maxDepth files input = typed) ∧
    (∀ done line, lines = done ++ [line] → (∀ s ∈ start.steps lines, s.Succeeds) →
      Datum.parseForms line ≠ .ok [] →
      let last : Step := ⟨start.afterAll done, line⟩
      script.status = 0 ∧ typed.status = 0 ∧
        script.stdout = printedAll (start.steps done) ++ (last.printed ++ last.echo) ∧
        typed.stdout = shownAll (start.steps done) ++ (last.printed ++ last.echo)) ∧
    (∀ done line rest, lines = done ++ line :: rest → (∀ s ∈ start.steps done, s.Succeeds) →
      let failing : Step := ⟨start.afterAll done, line⟩
      (∀ status, failing.result = .error (.fault (.exit status)) →
        script.status = status ∧ typed.status = status ∧
          script.stdout = printedAll (start.steps done) ++ failing.printed) ∧
      (∀ e, failing.result = .error e → (∀ status, e ≠ .fault (.exit status)) →
        (∃ log, (arguments.verbosity = 0 → log = "") ∧ script.stderr = log ++ failureLine e) ∧
        script.stdout = printedAll (start.steps done) ++ failing.printed ∧
        ((∃ limit, e = .fault (.recursionLimit limit)) ∧
            failureLine e = "Fatal -- " ++ e.message ++ "\n" ∧ script.status = 2 ∨
          (∀ limit, e ≠ .fault (.recursionLimit limit)) ∧
            failureLine e = "Error -- " ++ e.message ++ "\n" ∧ script.status = 1) ∧
        typed = takeLines failing.after.quiet (shownAll (start.steps done) ++ failing.printed)
          (greeting ++ failureLine e) rest)) := by
  intro start script typed
  -- what was printed before plays no part, so the prompt may as well start quiet
  have htyped : typed = takeLines start.quiet "" greeting lines := takeLines_quiet rfl "" greeting lines
  refine ⟨?_, ?_, ?_⟩
  · rintro input rfl
    rfl
  · intro done line hlines hok hline last
    subst hlines
    rw [steps_append] at hok
    have hdone : ∀ s ∈ start.steps done, s.Succeeds := fun s hs => hok s (List.mem_append_left _ hs)
    obtain ⟨v, hv⟩ : last.Succeeds := hok last (by simp [last])
    obtain ⟨log, hrespond⟩ := respond_of_last hparses hscript hdone rfl hline hv
    have hlast := takeLines_cons_of_ok (shownAll (start.steps done)) greeting [] hv
    rw [takeLines_append "" greeting [line] hdone, String.empty_append, hlast, takeLines] at htyped
    rw [show script = _ from hrespond, htyped]
    exact ⟨rfl, rfl, rfl, rfl⟩
  · -- up to the failing line both did the same; there the script ends and the prompt may go on
    intro done line rest hlines hdone failing
    subst hlines
    rw [takeLines_append "" greeting (line :: rest) hdone, String.empty_append] at htyped
    refine ⟨?_, ?_⟩
    · intro status hstatus
      obtain ⟨log, -, hrespond⟩ := respond_of_failing hparses hscript hdone hstatus
      have hleave := takeLines_cons_of_exit (shownAll (start.steps done)) greeting rest hstatus
      rw [show script = _ from hrespond, htyped.trans hleave]
      exact ⟨rfl, rfl, rfl⟩
    · intro e he hother
      obtain ⟨log, hlog, hrespond⟩ := respond_of_failing hparses hscript hdone he
      obtain ⟨hreport, hkind⟩ := failureLine_and_status hother
      have hgoesOn := takeLines_cons_of_error (shownAll (start.steps done)) greeting rest he hother
      rw [show script = _ from hrespond, hreport]
      exact ⟨⟨log, hlog, rfl⟩, rfl, hkind, htyped.trans hgoesOn⟩

open Console Step in
/-- The second of three lines fails. -/
theorem script_agrees_with_prompt_quote :
    let arguments : Arguments := ⟨.stdin, 100, 0⟩
    let files : Files := fun _ => .error .notFound
    let lines := [":a", "(quote)", ":b"]
    let start := fresh arguments files
    let script := respond arguments files ("\n".intercalate lines).toUTF8
    let failing : Step := ⟨start.afterAll [":a"], "(quote)"⟩
    failing.result = .error (.fault (.illFormed .quote)) ∧
      script.status = 1 ∧ script.stderr = "Error -- Ill-formed quote expression\n" ∧
      takeLines start "" greeting lines =
        takeLines failing.after.quiet (shownAll (start.steps [":a"]) ++ failing.printed)
          (greeting ++ script.stderr) [":b"] := by
  intro arguments files lines start script failing
  have hkeyword : Datum.parseForms ":a" = .ok [.keyword ":a"] := by cbv
  have hquote : Datum.parseForms "(quote)" = .ok [.list [.symbol "quote"]] := by cbv
  have hkeyword' : Datum.parseForms ":b" = .ok [.keyword ":b"] := by cbv
  have hparses : ∀ line ∈ lines, Parses line := by
    intro line hline
    simp only [lines, List.mem_cons, List.not_mem_nil, or_false] at hline
    rcases hline with rfl | rfl | rfl
    · exact ⟨_, hkeyword⟩
    · exact ⟨_, hquote⟩
    · exact ⟨_, hkeyword'⟩
  have hdone : ∀ s ∈ start.steps [":a"], s.Succeeds := by
    intro s hs
    obtain rfl := List.mem_singleton.mp hs
    refine ⟨.keyword ":a", ?_⟩
    rw [Step.result, eval_of_parseForms _ hkeyword]
    rfl
  have hbefore : failing.before = start := by
    show (start.eval ":a").2 = start
    rw [eval_of_parseForms _ hkeyword]
    rfl
  have hfails : failing.result = .error (.fault (.illFormed .quote)) := by
    rw [Step.result, hbefore, eval_of_parseForms _ hquote]
    rfl
  have hscript : RunsText arguments files ("\n".intercalate lines).toUTF8 ("\n".intercalate lines) := rfl
  have hagree := (script_agrees_with_prompt hparses hscript).2.2 [":a"] "(quote)" [":b"] rfl hdone
  obtain ⟨⟨log, hlog, hstderr⟩, -, hkind, hprompt⟩ := hagree.2 _ hfails (by simp)
  have hline : script.stderr = "Error -- Ill-formed quote expression\n" := by
    rw [show script.stderr = _ from hstderr, hlog rfl]
    rfl
  refine ⟨hfails, ?_, hline, ?_⟩
  · rcases hkind with ⟨⟨limit, ⟨⟩⟩, -⟩ | ⟨-, -, hstatus⟩
    exact hstatus
  · rw [hline]
    exact hprompt

end SmallLisp
