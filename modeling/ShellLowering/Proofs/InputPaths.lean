import ShellLowering.Proofs.PieceReading
import ShellLowering.Proofs.RunSequence
import ShellLowering.Proofs.SessionLoop

namespace ShellLowering

namespace Event

/-- The lines among the events. -/
def typedLines : List Event → List String
  | [] => []
  | .line text :: events => text :: typedLines events
  | .interrupt :: events => typedLines events

/-- The text that the lines among the events make up. -/
def typedText (events : List Event) : String :=
  String.join ((typedLines events).map (· ++ "\n"))

/-- What the terminal shows of an event itself, behind the prompt. -/
def echo : Event → String
  | .line _ => ""
  | .interrupt => "\n"

/-- What comes of an event, apart from what the terminal shows. -/
def run (settings : Settings) : Event → Run
  | .line text => Run.ofRead settings text
  | .interrupt => .silent

/-- A fault in the line of the event ends the session. -/
def isLast (settings : Settings) (event : Event) : Bool :=
  (event.run settings).isCutShort

def runAtTerminal (settings : Settings) (event : Event) : Run :=
  (Run.output (Input.prompt ++ event.echo)).append (event.run settings)

variable (settings : Settings)

theorem runAtTerminal_eq (event : Event) :
    event.runAtTerminal settings =
      ⟨Input.prompt ++ event.echo ++ (event.run settings).stdout, (event.run settings).stderr,
        (event.run settings).status⟩ := by
  simp [runAtTerminal, Run.append, Run.output, Status.andThen]

end Event

namespace Input

open Event (typedLines typedText runAtTerminal isLast)

variable {settings : Settings} {events : List Event}

theorem runEvents_eq_sequence (h : ∀ line ∈ typedLines events, IsTypable line.toList) :
    runEvents settings events = Run.sequence
      (events.map (runAtTerminal settings) ++ [.output (prompt ++ "\n")]) := by
  induction events with
  | nil => exact (Run.append_silent _).symm
  | cons event events ih =>
      rw [List.map_cons, List.cons_append, Run.sequence_cons]
      cases event with
      | interrupt =>
          rw [← ih h]
          change _ = ((Run.output (prompt ++ "\n")).append .silent).append _
          rw [Run.append_silent, runEvents]
      | line text =>
          obtain ⟨htext, hevents⟩ := List.forall_mem_cons.mp h
          have hchomp : chomp text = text := by simpa using Session.chomp_of_isTypable htext
          rw [← ih hevents, runEvents, hchomp, runAtTerminal, Event.echo, String.append_empty]
          rfl

theorem runLines_typedLines (settings : Settings) (events : List Event) :
    runLines settings (typedLines events) = Run.sequence (events.map (Event.run settings)) := by
  induction events with
  | nil => rfl
  | cons event events ih =>
      rw [List.map_cons, Run.sequence_cons, ← ih]
      cases event with
      | interrupt => exact (Run.silent_append _).symm
      | line text => rfl

theorem splitLines_typedText (h : ∀ line ∈ typedLines events, IsTypable line.toList) :
    (splitLines (typedText events).toList).map String.ofList = typedLines events := by
  have htext : (typedText events).toList =
      ((typedLines events).map String.toList).flatMap (· ++ ['\n']) := by
    rw [typedText, String.toList_join, List.flatMap_map, List.flatMap_map]
    simp
  have hlines := isSplit_iff.mp (isSplit_flatMap (List.forall_mem_map.mpr h))
  rw [htext, ← hlines]
  simp

/-- Typed lines are run as the text that they make up, with what the terminal shows between. -/
theorem run_terminal (settings : Settings)
    (h : ∀ line ∈ typedLines events, IsTypable line.toList) :
    let handled := upTo (isLast settings) events
    let terminal := (Input.terminal events).run settings
    let piped := (Input.piped (typedText events)).run settings
    terminal.status = piped.status ∧ terminal.stderr = piped.stderr ∧
    piped.stdout = String.join (handled.map fun event => (event.run settings).stdout) ∧
    terminal.stdout =
      String.join (handled.map fun event => prompt ++ event.echo ++ (event.run settings).stdout) ++
        if terminal.status = .aborted then "" else prompt ++ "\n" := by
  intro handled terminal piped
  have hterminal : terminal = Run.sequence
      (events.map (runAtTerminal settings) ++ [.output (prompt ++ "\n")]) :=
    runEvents_eq_sequence h
  have hpiped : piped = Run.sequence (events.map (Event.run settings)) := by
    change runLines settings ((splitLines (typedText events).toList).map String.ofList) = _
    rw [splitLines_typedText h, runLines_typedLines]
  have hshown : terminal = ⟨_, _, _⟩ := hterminal.trans (Run.sequence_append_output _ _)
  rw [hshown, hpiped]
  refine ⟨?_, ?_, ?_, congrArg (· ++ _) ?_⟩
  · simp only [Run.status_sequence, List.any_map, Function.comp_def, Event.runAtTerminal_eq]
    rfl
  · simp only [Run.stderr_sequence, upTo_map, List.map_map, Function.comp_def,
      Event.runAtTerminal_eq]
    rfl
  · simp only [Run.stdout_sequence, upTo_map, List.map_map, Function.comp_def]
    rfl
  · simp only [Run.stdout_sequence, upTo_map, List.map_map, Function.comp_def,
      Event.runAtTerminal_eq]
    rfl

theorem runLines_singleton (settings : Settings) (line : String) :
    runLines settings [line] = Run.ofRead settings line :=
  Run.append_silent _

/-- A text of one line runs as the line, with or without an end. -/
theorem run_piped_line (settings : Settings) {line : String} (h : IsTypable line.toList) :
    (Input.piped line).run settings = Run.ofRead settings line ∧
      (Input.piped (line ++ "\n")).run settings = Run.ofRead settings line := by
  constructor
  · obtain rfl | hne := eq_or_ne line ""
    · rfl
    · have hline := splitLines_of_isTypable (mt String.toList_eq_nil_iff.mp hne) h
      rw [run, hline, List.map_singleton, String.ofList_toList, runLines_singleton]
  · have hlines := splitLines_append h (.newLine [])
    rw [run, String.toList_append]
    change runLines settings ((splitLines (line.toList ++ (['\n'] ++ []))).map String.ofList) = _
    rw [hlines]
    change runLines settings [String.ofList line.toList] = _
    rw [String.ofList_toList, runLines_singleton]

end Input

theorem Line.read_of_isBlankText {line : String} (h : Text.isBlankText line = true) :
    read line = .ok [] := by
  have hrun : ∀ (chars : List Char) (column : Nat), chars.all Text.isBlank = true →
      Reader.between.run column chars = .ok [] := by
    intro chars
    induction chars with
    | nil => exact fun _ _ => rfl
    | cons c chars ih =>
        intro column hblank
        obtain ⟨hc, hchars⟩ := Bool.and_eq_true_iff.mp hblank
        rw [Reader.run_between_blank hc, ih _ hchars]
  exact hrun line.toList 0 h

/-- A blank line has no tokens, so that it is an empty command line unless it is passed over. -/
theorem Run.ofLine_of_isBlankText {line : String} (h : Text.isBlankText line = true)
    (settings : Settings) :
    ofLine settings line =
      ⟨"", "cmdlower: empty command line (at end of input)\n", .failure⟩ := by
  have hlog : log settings [] = "" := by simp [log]
  rw [ofLine, Line.report, Line.tokens, Line.read_of_isBlankText h]
  change Run.mk "" (log settings [] ++ _) .failure = _
  rw [hlog]
  rfl

namespace Options

/-- Arguments that ask for the options, with the line behind the separator. -/
def spelled (options : Options) (line : String) : List String :=
  (match options.mode with
    | .unset => []
    | .cleared => ["--mode=--"]
    | .chosen .interactive => ["--mode=interactive"]
    | .chosen .batch => ["--mode=batch"]) ++
  (if options.parseOnly then ["--parse-only"] else []) ++
  (if options.verbose then ["--verbose"] else []) ++ ["--", line]

theorem parse_spelled (options : Options) (line : String) :
    parse (options.spelled line) = .ok { options with line := some line } := by
  obtain ⟨mode, parseOnly, verbose, _⟩ := options
  cases parseOnly <;> cases verbose <;> obtain _ | _ | (_ | _) := mode <;> rfl

end Options

namespace Invocation

section Direct

variable {arguments direct : List String} {options : Options} {line : String}
  (parsed : Options.parse arguments = .ok options) (noLine : options.line = none)
  (given : Options.parse direct = .ok { options with line := some line })
  (typable : Input.IsTypable line.toList) (variableValue : Option String) (input : Input)

include given

/-- A line among the arguments is run at once. -/
theorem run_direct :
    let invocation := ofOptions options variableValue
    let ran := Run.ofLine invocation.settings line
    run direct variableValue input =
      ⟨ran.stdout, invocation.opening.stderr ++ ran.stderr, ran.status⟩ := by
  rw [run_of_parse given]
  exact opening_append options variableValue _

include parsed noLine typable

theorem run_direct_of_not_isBlankText (hblank : Text.isBlankText line = false) :
    run direct variableValue input = run arguments variableValue (.piped line) ∧
      run direct variableValue input = run arguments variableValue (.piped (line ++ "\n")) := by
  have hread : ∀ settings, Run.ofRead settings line = Run.ofLine settings line :=
    fun settings => if_neg (by simp [hblank])
  obtain ⟨hpiped, hended⟩ :=
    Input.run_piped_line (ofOptions options variableValue).settings typable
  rw [run_direct given, run_of_line_eq_none parsed noLine, run_of_line_eq_none parsed noLine,
    hpiped, hended, hread]
  exact ⟨rfl, rfl⟩

/-- A blank line is complained of among the arguments, and passed over in a text. -/
theorem run_direct_of_isBlankText (hblank : Text.isBlankText line = true) :
    let opening := (ofOptions options variableValue).opening.stderr
    run direct variableValue input =
      ⟨"", opening ++ "cmdlower: empty command line (at end of input)\n", .failure⟩ ∧
    run arguments variableValue (.piped line) = ⟨"", opening, .success⟩ ∧
    run arguments variableValue (.piped (line ++ "\n")) = ⟨"", opening, .success⟩ := by
  have hread : ∀ settings, Run.ofRead settings line = .silent := fun settings => if_pos hblank
  obtain ⟨hpiped, hended⟩ :=
    Input.run_piped_line (ofOptions options variableValue).settings typable
  rw [run_direct given, run_of_line_eq_none parsed noLine, run_of_line_eq_none parsed noLine,
    hpiped, hended, hread, Run.ofLine_of_isBlankText hblank]
  simp [Run.silent]

end Direct

/-- The tool runs the same whichever way it is given its lines. At a terminal it ends and complains
as it does for the text that the typed lines make up, and it prints what it prints for that text
with a prompt in front of each event that it gets to, a new line for each interrupt, and a last
prompt unless a fault ends the session. A line among the arguments runs as a text of that line,
except that a blank one is an empty command line there. -/
theorem run_input_paths {arguments : List String} {options : Options}
    (parsed : Options.parse arguments = .ok options) (noLine : options.line = none)
    (variableValue : Option String) :
    let invocation := ofOptions options variableValue
    let ran := run arguments variableValue
    (∀ input, Session.main options variableValue input = Session.ofRun (ran input)) ∧
    (∀ events, (∀ line ∈ Event.typedLines events, Input.IsTypable line.toList) →
      let handled := upTo (Event.isLast invocation.settings) events
      let output := fun event => (Event.run invocation.settings event).stdout
      let terminal := ran (.terminal events)
      let piped := ran (.piped (Event.typedText events))
      terminal.status = piped.status ∧ terminal.stderr = piped.stderr ∧
      piped.stdout = String.join (handled.map output) ∧
      terminal.stdout =
        String.join (handled.map fun event => Input.prompt ++ event.echo ++ output event) ++
          if terminal.status = .aborted then "" else Input.prompt ++ "\n") ∧
    (∀ line, Input.IsTypable line.toList →
      (∃ direct, Options.parse direct = .ok { options with line := some line }) ∧
      ∀ direct input, Options.parse direct = .ok { options with line := some line } →
        Session.main { options with line := some line } variableValue input =
          Session.ofRun (run direct variableValue input) ∧
        (Text.isBlankText line = false →
          run direct variableValue input = ran (.piped line) ∧
          run direct variableValue input = ran (.piped (line ++ "\n"))) ∧
        (Text.isBlankText line = true →
          run direct variableValue input = ⟨"", invocation.opening.stderr ++
            "cmdlower: empty command line (at end of input)\n", .failure⟩ ∧
          ran (.piped line) = ⟨"", invocation.opening.stderr, .success⟩ ∧
          ran (.piped (line ++ "\n")) = ⟨"", invocation.opening.stderr, .success⟩)) := by
  intro invocation ran
  refine ⟨Session.main_eq_of_parse parsed variableValue, fun events typable => ?_,
    fun line typable => ⟨⟨_, options.parse_spelled line⟩, fun direct input given => ?_⟩⟩
  · obtain ⟨hstatus, hstderr, hpiped, hterminal⟩ :=
      Input.run_terminal invocation.settings typable
    have hran : ∀ input, ran input = ⟨_, _, _⟩ :=
      run_of_line_eq_none parsed noLine variableValue
    simp only [hran]
    exact ⟨hstatus, congrArg (_ ++ ·) hstderr, hpiped, hterminal⟩
  · exact ⟨Session.main_eq_of_parse given variableValue input,
      run_direct_of_not_isBlankText parsed noLine given typable variableValue input,
      run_direct_of_isBlankText parsed noLine given typable variableValue input⟩

/-- Behind an interrupt a good line and a bad one are typed: the terminal shows its prompts around
the outline of the one, and the other is complained of, as it is among the arguments. A blank line
is complained of there only. -/
theorem run_input_paths_interrupt :
    let ran := run ["--parse-only"] (some "batch")
    let events := [Event.interrupt, .line "ls", .line "a |"]
    let complaint := "cmdlower: expected a command, found end of input (at end of input)\n"
    Options.parse ["--parse-only"] = .ok ⟨.unset, true, false, none⟩ ∧
    Event.typedText events = "ls\na |\n" ∧
    (ran (.terminal events)).status = (ran (.piped "ls\na |\n")).status ∧
    (ran (.terminal events)).stderr = (ran (.piped "ls\na |\n")).stderr ∧
    (ran (.terminal events)).stdout =
      "cmdlower> \ncmdlower> LIST\n  CLAUSE\n    PIPE\n      CMD  ls\ncmdlower> cmdlower> \n" ∧
    Options.parse ["--parse-only", "a |"] = .ok ⟨.unset, true, false, some "a |"⟩ ∧
    run ["--parse-only", "a |"] (some "batch") (.piped "ls") = ran (.piped "a |") ∧
    ran (.piped "a |") = ⟨"", complaint, .failure⟩ ∧
    Options.parse ["--parse-only", "\t"] = .ok ⟨.unset, true, false, some "\t"⟩ ∧
    run ["--parse-only", "\t"] (some "batch") (.piped "ls") =
      ⟨"", "cmdlower: empty command line (at end of input)\n", .failure⟩ ∧
    ran (.piped "\t\n") = .silent := by
  have hparse : Options.parse ["--parse-only"] = .ok ⟨.unset, true, false, none⟩ := by rfl
  have hbad : Options.parse ["--parse-only", "a |"] = .ok ⟨.unset, true, false, some "a |"⟩ := by
    rfl
  have hblank : Options.parse ["--parse-only", "\t"] = .ok ⟨.unset, true, false, some "\t"⟩ := by
    rfl
  have htyped : Event.typedText [.interrupt, .line "ls", .line "a |"] = "ls\na |\n" := by rfl
  have hcomplaint : run ["--parse-only"] (some "batch") (.piped "a |") =
      ⟨"", "cmdlower: expected a command, found end of input (at end of input)\n", .failure⟩ := by
    rfl
  obtain ⟨-, hevents, hlines⟩ := run_input_paths hparse rfl (some "batch")
  obtain ⟨hstatus, hstderr, -, hstdout⟩ :=
    hevents [.interrupt, .line "ls", .line "a |"] (by decide)
  obtain ⟨-, hdirect⟩ := hlines "a |" (by decide)
  obtain ⟨-, hsame, -⟩ := hdirect _ (.piped "ls") hbad
  obtain ⟨-, hdirect⟩ := hlines "\t" (by decide)
  obtain ⟨-, -, hempty⟩ := hdirect _ (.piped "ls") hblank
  obtain ⟨hrefused, -, hskipped⟩ := hempty (by decide)
  have hended : (run ["--parse-only"] (some "batch")
      (.terminal [.interrupt, .line "ls", .line "a |"])).status ≠ .aborted := by
    rw [hstatus, htyped]
    decide
  refine ⟨hparse, htyped, hstatus, hstderr, ?_, hbad, (hsame rfl).1, hcomplaint, hblank, hrefused,
    hskipped⟩
  rw [hstdout, if_neg hended]
  rfl

end Invocation

end ShellLowering
