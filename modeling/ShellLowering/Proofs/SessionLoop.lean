import Mathlib.Data.List.DropRight
import ShellLowering.Proofs.Outcome
import ShellLowering.Proofs.TextLines
import ShellLowering.Session.Invocation

/-!
The tool as a loop. It takes one line after another from a text or from a terminal, until there is
none or a fault ends it, and keeps one exit code for all of them.
-/

namespace ShellLowering

theorem Run.status_append_eq_aborted_iff {first : Run} (h : first.status ≠ .aborted)
    (second : Run) : (first.append second).status = .aborted ↔ second.status = .aborted := by
  obtain ⟨stdout₁, stderr₁, status₁⟩ := first
  obtain ⟨stdout₂, stderr₂, status₂⟩ := second
  cases status₁ <;> cases status₂ <;> simp_all [append, Status.andThen]

/-- A session under way: what it has written so far, and the exit code if it ended now. -/
structure Session where
  stdout : String
  stderr : String
  code : Nat

namespace Session

def initial : Session := ⟨"", "", 0⟩

def print (session : Session) (text : String) : Session :=
  { session with stdout := session.stdout ++ text }

def warn (session : Session) (text : String) : Session :=
  { session with stderr := session.stderr ++ text }

/-- A fault that ends the session, and the session that it leaves behind. -/
structure Raised where
  fault : Line.Fault
  session : Session

/-- The session that a fault ends. -/
def Raised.caught (raised : Raised) : Session :=
  { raised.session.warn (.join [toolName, ": error: ", raised.fault.message, "\n"]) with code := 1 }

/-- Prints a line as it is rendered. A fault that is not fatal is told of and turned into a code. -/
def processLine (settings : Settings) (line : String) (session : Session) :
    Except Raised (Nat × Session) :=
  let report := Line.report settings.mode settings.parseOnly line
  let logged := session.warn (Run.log settings report.notes)
  match report.result with
  | .ok text => .ok (0, logged.print (text ++ "\n"))
  | .error fault =>
    if fault.isFatal then .error ⟨fault, logged⟩
    else .ok (2, logged.warn (.join [toolName, ": ", fault.message, "\n"]))

/-- What the loop does with a line. A code that is not 0 stays to the end. -/
def takeLine (settings : Settings) (line : String) (session : Session) : Except Raised Session :=
  let bare := Input.chomp line
  if Text.isBlankText bare then .ok session
  else do
    let (code, next) ← processLine settings bare session
    return if code ≠ 0 then { next with code := 2 } else next

/-- A text as it is read, with a new line for each of its line ends. -/
def translate : List Char → List Char
  | [] => []
  | '\r' :: '\n' :: rest => '\n' :: translate rest
  | c :: rest => (if c = '\r' then '\n' else c) :: translate rest

/-- The next line of a text with the new line that ends it, and the rest of the text. A line is
empty only where the text has come to its end. -/
def nextLine : List Char → List Char × List Char
  | [] => ([], [])
  | c :: rest =>
    if c = '\n' then ([c], rest)
    else
      let (line, after) := nextLine rest
      (c :: line, after)

theorem length_nextLine (text : List Char) :
    (nextLine text).1.length + (nextLine text).2.length = text.length := by
  induction text with
  | nil => rfl
  | cons c rest ih =>
      rw [nextLine]
      split
      · simp [Nat.add_comm]
      · simp only [List.length_cons]
        omega

def readLoop (settings : Settings) (text : List Char) (session : Session) :
    Except Raised Session :=
  if (nextLine text).1 = [] then .ok session
  else do
    let next ← takeLine settings (String.ofList (nextLine text).1) session
    readLoop settings (nextLine text).2 next
termination_by text.length
decreasing_by
  have htotal := length_nextLine text
  have hline := List.length_pos_of_ne_nil ‹_›
  omega

/-- The loop at a terminal. Asking for a line is answered by a line, by an interrupt, or by the end
of the input. -/
def typeLoop (settings : Settings) : List Event → Session → Except Raised Session
  | [], session => .ok ((session.print Input.prompt).print "\n")
  | .interrupt :: events, session =>
    typeLoop settings events ((session.print Input.prompt).print "\n")
  | .line text :: events, session => do
    let next ← takeLine settings text (session.print Input.prompt)
    typeLoop settings events next

/-- The end of a session, which a fault that was raised comes to as well. -/
def conclude : Except Raised Session → Session
  | .ok session => session
  | .error raised => raised.caught

/-- The session that options ask for, to its end. -/
def main (options : Options) (variableValue : Option String) (input : Input) : Session :=
  let (mode, warning) := Invocation.mode options.mode variableValue
  let settings : Settings := ⟨mode, options.parseOnly, options.verbose⟩
  let opened := (initial.warn warning).warn (Run.log settings [.mode mode])
  let ended : Except Raised Session :=
    match options.line, input with
    | some line, _ => do
      let (code, session) ← processLine settings line opened
      return { session with code := code }
    | none, .piped text => readLoop settings (translate text.toList) opened
    | none, .terminal events => typeLoop settings events opened
  conclude ended

section Following

/-- The session after a run. -/
def follow (session : Session) (run : Run) : Session :=
  ⟨session.stdout ++ run.stdout, session.stderr ++ run.stderr,
    match run.status with
    | .success => session.code
    | status => status.code⟩

/-- What is seen of a run from outside. -/
def ofRun (run : Run) : Session :=
  ⟨run.stdout, run.stderr, run.status.code⟩

/-- Going on from a session comes to what the run says: to the session after it, or to a fault if
the run is cut short. -/
inductive Follows (session : Session) (run : Run) : Except Raised Session → Prop
  | ok (h : run.status ≠ .aborted) : Follows session run (.ok (session.follow run))
  | error {raised : Raised} (h : run.status = .aborted)
      (hcaught : raised.caught = session.follow run) : Follows session run (.error raised)

variable {session : Session} {first second run : Run}

theorem initial_follow (run : Run) : initial.follow run = ofRun run := by
  obtain ⟨stdout, stderr, status⟩ := run
  cases status <;> simp [initial, follow, ofRun, Status.code]

theorem follow_output (session : Session) (text : String) :
    session.follow (.output text) = session.print text := by
  simp [follow, Run.output, print]

theorem follow_append (h : first.status ≠ .aborted) :
    session.follow (first.append second) = (session.follow first).follow second := by
  obtain ⟨stdout₁, stderr₁, status₁⟩ := first
  obtain ⟨stdout₂, stderr₂, status₂⟩ := second
  cases status₁ <;> cases status₂ <;>
    simp_all [follow, Run.append, Status.andThen, String.append_assoc]

theorem follows_silent (session : Session) : Follows session .silent (.ok session) := by
  have hfollow : session.follow .silent = session := by simp [follow, Run.silent]
  have hok : Follows session .silent (.ok (session.follow .silent)) := .ok (by decide)
  rwa [hfollow] at hok

theorem print_print (session : Session) (first second : String) :
    (session.print first).print second = session.print (first ++ second) := by
  simp [print, String.append_assoc]

theorem follows_output (session : Session) (text : String) :
    Follows session (.output text) (.ok (session.print text)) := by
  rw [← follow_output]
  exact .ok (by simp [Run.output])

/-- Nothing is gone on with after a fault, and nothing follows a run that was cut short. -/
theorem Follows.bind {result : Except Raised Session} {f : Session → Except Raised Session}
    (hfirst : Follows session first result)
    (hsecond : ∀ next, result = .ok next → Follows next second (f next)) :
    Follows session (first.append second) (result >>= f) := by
  cases hfirst with
  | error hstatus hcaught =>
      have happend : first.append second = first := if_pos hstatus
      rw [happend]
      exact .error hstatus hcaught
  | ok hstatus =>
      have happend := Run.status_append_eq_aborted_iff hstatus second
      have hsecond := hsecond _ rfl
      rw [ok_bind]
      generalize f (session.follow first) = result at hsecond
      cases hsecond with
      | error hlast hcaught =>
          exact .error (happend.mpr hlast) (hcaught.trans (follow_append hstatus).symm)
      | ok hlast =>
          rw [← follow_append hstatus]
          exact .ok (mt happend.mp hlast)

theorem Follows.conclude_eq {result : Except Raised Session} (h : Follows session run result) :
    conclude result = session.follow run := by
  cases h with
  | ok => rfl
  | error _ hcaught => exact hcaught

theorem Follows.print {result : Except Raised Session} {text : String}
    (h : Follows (session.print text) second result) :
    Follows session ((Run.output text).append second) result := by
  refine (follows_output session text).bind ?_ (f := fun _ => result)
  rintro next ⟨⟩
  exact h

end Following

section Lines

variable (settings : Settings)

/-- A line is printed, told of or raised, and its code is the one of its run. -/
theorem processLine_cases (line : String) (session : Session) :
    let run := Run.ofLine settings line
    (run.status ≠ .aborted ∧ processLine settings line session =
      .ok (run.status.code, { session.follow run with code := session.code })) ∨
    (run.status = .aborted ∧ ∃ raised, processLine settings line session = .error raised ∧
      raised.caught = session.follow run) := by
  rw [Run.ofLine, processLine]
  cases (Line.report settings.mode settings.parseOnly line).result with
  | ok text =>
      refine .inl ⟨by simp, ?_⟩
      simp [follow, warn, print, Status.code]
  | error fault =>
      cases hfatal : fault.isFatal with
      | false =>
          refine .inl ⟨by simp [hfatal], ?_⟩
          simp [hfatal, follow, warn, Run.complaint, Status.code, String.append_assoc]
      | true =>
          refine .inr ⟨by simp [hfatal], _, if_pos hfatal, ?_⟩
          simp [hfatal, Raised.caught, follow, warn, Run.complaint, Status.code,
            String.append_assoc]

/-- Processing a line follows its run, if its code is put to use as the run says. -/
theorem follows_processLine {session : Session} {f : Nat → Session → Session}
    (hf : ∀ run : Run, run.status ≠ .aborted →
      f run.status.code { session.follow run with code := session.code } = session.follow run)
    (line : String) :
    Follows session (Run.ofLine settings line) (do
      let (code, next) ← processLine settings line session
      return f code next) := by
  obtain ⟨hstatus, hprocess⟩ | ⟨hstatus, raised, hprocess, hcaught⟩ :=
    processLine_cases settings line session
  · have hok : Follows session (Run.ofLine settings line) (.ok _) := .ok hstatus
    rw [← hf _ hstatus] at hok
    rw [hprocess]
    exact hok
  · rw [hprocess]
    exact .error hstatus hcaught

theorem follows_takeLine (line : String) (session : Session) :
    Follows session (Run.ofRead settings (Input.chomp line)) (takeLine settings line session) := by
  rw [Run.ofRead, takeLine]
  split
  · exact follows_silent session
  · refine follows_processLine settings ?_ (Input.chomp line)
      (f := fun code next => if code ≠ 0 then { next with code := 2 } else next)
    intro run hstatus
    cases hrun : run.status <;> simp_all [follow, Status.code]

theorem follows_takeLine_of_chomp {line bare : String} (h : Input.chomp line = bare)
    (session : Session) :
    Follows session (Run.ofRead settings bare) (takeLine settings line session) := by
  rw [← h]
  exact follows_takeLine settings line session

/-- At a terminal the loop goes through the events as their run does. -/
theorem follows_typeLoop (events : List Event) (session : Session) :
    Follows session (Input.runEvents settings events) (typeLoop settings events session) := by
  induction events generalizing session with
  | nil =>
      rw [typeLoop, print_print]
      exact follows_output session (Input.prompt ++ "\n")
  | cons event events ih =>
      cases event with
      | interrupt =>
          rw [typeLoop, print_print]
          exact (ih _).print
      | line text =>
          refine Follows.bind ?_ fun next _ => ih next
          exact (follows_takeLine settings text _).print

end Lines

section Reading

open Input (IsTypable IsLineEnd IsSplit)

variable {line rest : List Char}

theorem translate_append (hline : IsTypable line) (rest : List Char) :
    translate (line ++ rest) = line ++ translate rest := by
  induction line with
  | nil => rfl
  | cons c line ih =>
      obtain ⟨hc, hline⟩ := Input.isTypable_cons.mp hline
      have hreturn : c ≠ '\r' := fun h => hc (.inr h)
      rw [List.cons_append, translate, if_neg hreturn, ih hline, List.cons_append]
      exact fun _ h => absurd h hreturn

theorem translate_ending {ending : List Char} (h : IsLineEnd ending rest) :
    translate (ending ++ rest) = '\n' :: translate rest := by
  cases h with
  | newLine => simp [translate]
  | both => simp [translate]
  | carriageReturn hhead =>
      change translate ('\r' :: rest) = _
      rw [translate, if_pos rfl]
      rintro rest - rfl
      exact hhead rfl

theorem nextLine_newLine (hline : IsTypable line) (rest : List Char) :
    nextLine (line ++ '\n' :: rest) = (line ++ ['\n'], rest) := by
  induction line with
  | nil => rfl
  | cons c line ih =>
      obtain ⟨hc, hline⟩ := Input.isTypable_cons.mp hline
      rw [List.cons_append, nextLine, if_neg fun h => hc (.inl h), ih hline]
      rfl

theorem nextLine_of_isTypable (hline : IsTypable line) : nextLine line = (line, []) := by
  induction line with
  | nil => rfl
  | cons c line ih =>
      obtain ⟨hc, hline⟩ := Input.isTypable_cons.mp hline
      rw [nextLine, if_neg fun h => hc (.inl h), ih hline]

theorem chomp_of_isTypable (hline : IsTypable line) :
    Input.chomp (String.ofList line) = String.ofList line := by
  rw [Input.chomp, String.toList_ofList]
  refine congrArg String.ofList (List.rdropWhile_eq_self_iff.mpr fun hne hlast => hline.1 ?_)
  rw [← of_decide_eq_true hlast]
  exact List.getLast_mem hne

theorem chomp_newLine (hline : IsTypable line) :
    Input.chomp (String.ofList (line ++ ['\n'])) = String.ofList line := by
  rw [← chomp_of_isTypable hline, Input.chomp, Input.chomp, String.toList_ofList,
    String.toList_ofList]
  exact congrArg String.ofList (List.rdropWhile_concat_pos _ line '\n' (by decide))

theorem readLoop_nil (settings : Settings) (session : Session) :
    readLoop settings [] session = .ok session := by
  rw [readLoop]
  rfl

theorem readLoop_of_nextLine {settings : Settings} {text : List Char} (hne : line ≠ [])
    (h : nextLine text = (line, rest)) (session : Session) :
    readLoop settings text session =
      takeLine settings (String.ofList line) session >>= readLoop settings rest := by
  rw [readLoop, h, if_neg hne]

/-- The loop reads a text line by line. -/
theorem follows_readLoop (settings : Settings) {text : List Char} {lines : List (List Char)}
    (h : IsSplit text lines) (session : Session) :
    Follows session (Input.runLines settings (lines.map String.ofList))
      (readLoop settings (translate text) session) := by
  induction h generalizing session with
  | nil =>
      rw [translate, readLoop_nil]
      exact follows_silent session
  | @last line hne hline =>
      have htext : translate line = line := by
        simpa [translate] using translate_append hline []
      rw [htext, readLoop_of_nextLine hne (nextLine_of_isTypable hline)]
      have htaken := follows_takeLine_of_chomp settings (chomp_of_isTypable hline) session
      refine htaken.bind fun next _ => ?_
      rw [readLoop_nil]
      exact follows_silent next
  | @cons line ending rest lines hline hend _ ih =>
      rw [translate_append hline, translate_ending hend,
        readLoop_of_nextLine (by simp) (nextLine_newLine hline _)]
      have htaken := follows_takeLine_of_chomp settings (chomp_newLine hline) session
      exact htaken.bind fun next _ => ih next

end Reading

/-- The loop writes and ends as the run of its input does. -/
theorem main_eq (options : Options) (variableValue : Option String) (input : Input) :
    main options variableValue input =
      ofRun ((Invocation.ofOptions options variableValue).runWith input) := by
  rcases hmode : Invocation.mode options.mode variableValue with ⟨mode, warning⟩
  let settings : Settings := ⟨mode, options.parseOnly, options.verbose⟩
  let opening : Run := ⟨"", warning ++ Run.log settings [.mode mode], .success⟩
  have hopened : (initial.warn warning).warn (Run.log settings [.mode mode]) =
      initial.follow opening := by
    simp [initial, warn, follow, opening]
  have hopening : opening.status ≠ .aborted := by simp [opening]
  simp only [main, Invocation.ofOptions, Invocation.runWith, hmode]
  rw [← initial_follow, follow_append hopening, hopened]
  refine Follows.conclude_eq ?_
  cases options.line with
  | some line =>
      refine follows_processLine settings ?_ line (f := fun code next => { next with code := code })
      intro run hstatus
      cases hrun : run.status <;> simp_all [follow, Status.code, initial, opening]
  | none =>
      cases input with
      | piped text => exact follows_readLoop settings (Input.isSplit_splitLines _) _
      | terminal events => exact follows_typeLoop settings events _

theorem main_eq_of_parse {arguments : List String} {options : Options}
    (parsed : Options.parse arguments = .ok options) (variableValue : Option String)
    (input : Input) :
    main options variableValue input = ofRun (Invocation.run arguments variableValue input) := by
  rw [Invocation.run, parsed]
  exact main_eq options variableValue input

end Session
end ShellLowering
