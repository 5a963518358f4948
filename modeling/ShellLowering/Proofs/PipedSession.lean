import ShellLowering.Proofs.FaultMessages
import ShellLowering.Proofs.RunSequence
import ShellLowering.Proofs.SessionLoop

namespace ShellLowering

/-- What a line adds to a session. -/
inductive Contribution where
  | nothing
  | output (text : String)
  | complaint (message : String)
  | stop (message : String)
  deriving DecidableEq, Repr

namespace Contribution

/-- What a fault adds: it is complained of, and a fatal one stops the session. -/
def ofFault (fault : Line.Fault) : Contribution :=
  if fault.isFatal then .stop fault.message else .complaint fault.message

/-- What a line adds. A blank line adds nothing. -/
def ofLine (mode : Mode) (parseOnly : Bool) (line : String) : Contribution :=
  if Text.isBlankText line then .nothing
  else match Line.render mode parseOnly line with
    | .ok text => .output text
    | .error fault => ofFault fault

def stdout : Contribution → String
  | .output text => text ++ "\n"
  | _ => ""

def stderr : Contribution → String
  | .complaint message => .join [toolName, ": ", message, "\n"]
  | .stop message => .join [toolName, ": error: ", message, "\n"]
  | _ => ""

def fails : Contribution → Bool
  | .complaint _ => true
  | _ => false

def stops : Contribution → Bool
  | .stop _ => true
  | _ => false

/-- The exit code of a session to which its lines add these. -/
def exitCode (contributions : List Contribution) : Nat :=
  if contributions.any stops then 1 else if contributions.any fails then 2 else 0

def run : Contribution → Run
  | .nothing => .silent
  | .output text => .output (text ++ "\n")
  | .complaint message => ⟨"", stderr (.complaint message), .failure⟩
  | .stop message => ⟨"", stderr (.stop message), .aborted⟩

theorem stdout_run (contribution : Contribution) :
    contribution.run.stdout = contribution.stdout := by
  cases contribution <;> rfl

theorem stderr_run (contribution : Contribution) :
    contribution.run.stderr = contribution.stderr := by
  cases contribution <;> rfl

theorem isCutShort_run (contribution : Contribution) :
    contribution.run.isCutShort = contribution.stops := by
  cases contribution <;> rfl

theorem isFaulty_run (contribution : Contribution) :
    contribution.run.isFaulty = contribution.fails := by
  cases contribution <;> rfl

theorem run_ofFault (fault : Line.Fault) :
    (ofFault fault).run =
      ⟨"", Run.complaint fault, if fault.isFatal then .aborted else .failure⟩ := by
  unfold ofFault Run.complaint
  cases fault.isFatal <;> rfl

/-- Without a log, a line that is read runs as what it adds. -/
theorem ofRead_eq_run {settings : Settings} (h : settings.verbose = false) (line : String) :
    Run.ofRead settings line = (ofLine settings.mode settings.parseOnly line).run := by
  rw [Run.ofRead, ofLine]
  split
  · rfl
  · have hlog : ∀ notes, Run.log settings notes = "" := by simp [Run.log, h]
    rw [Run.ofLine, hlog]
    change (match Line.render settings.mode settings.parseOnly line with
      | .ok text => Run.mk (text ++ "\n") "" .success
      | .error fault => ⟨"", "" ++ Run.complaint fault,
          if fault.isFatal then .aborted else .failure⟩) = _
    cases hrender : Line.render settings.mode settings.parseOnly line with
    | ok text => rfl
    | error fault => simp only [run_ofFault, String.empty_append]

variable (contributions : List Contribution)

theorem stdout_sequence_run :
    (Run.sequence (contributions.map run)).stdout =
      String.join ((upTo stops contributions).map stdout) := by
  rw [Run.stdout_sequence, upTo_map, List.map_map]
  simp only [isCutShort_run, Function.comp_def, stdout_run]

theorem stderr_sequence_run :
    (Run.sequence (contributions.map run)).stderr =
      String.join ((upTo stops contributions).map stderr) := by
  rw [Run.stderr_sequence, upTo_map, List.map_map]
  simp only [isCutShort_run, Function.comp_def, stderr_run]

theorem code_sequence_run :
    (Run.sequence (contributions.map run)).status.code = exitCode contributions := by
  rw [Run.status_sequence, List.any_map, List.any_map, exitCode]
  simp only [Function.comp_def, isCutShort_run, isFaulty_run]
  split
  · rfl
  · split <;> rfl

theorem ofFault_eq_stop {fault : Line.Fault} {message : String}
    (h : ofFault fault = .stop message) : fault.isFatal = true ∧ message = fault.message := by
  unfold ofFault at h
  split at h
  · next hfatal =>
      injection h with h
      exact ⟨hfatal, h.symm⟩
  · cases h

theorem isUnbroken_of_ofFault {fault : Line.Fault} {message : String}
    (h : ofFault fault = .complaint message ∨ ofFault fault = .stop message) :
    Text.IsUnbroken message.toList := by
  have hmessage : message = fault.message := by
    unfold ofFault at h
    split at h <;> simpa [eq_comm] using h
  rw [hmessage]
  exact fault.isUnbroken_message

variable {mode : Mode} {parseOnly : Bool} {line message : String}

/-- A message is one line. -/
theorem isUnbroken_of_ofLine
    (h : ofLine mode parseOnly line = .complaint message ∨
      ofLine mode parseOnly line = .stop message) : Text.IsUnbroken message.toList := by
  unfold ofLine at h
  split at h
  · obtain h | h := h <;> cases h
  · split at h
    · obtain h | h := h <;> cases h
    · exact isUnbroken_of_ofFault h

/-- Only a digit word over the limit stops a session. -/
theorem exists_tooManyDigits_of_stop (h : ofLine mode parseOnly line = .stop message) :
    ∃ count, digitLimit < count ∧ Line.read line = .error (.tooManyDigits count) ∧
      message = (Line.ReadError.tooManyDigits count).message := by
  unfold ofLine at h
  split at h
  · cases h
  · split at h
    · cases h
    · next fault hrender =>
        obtain ⟨hfatal, hmessage⟩ := ofFault_eq_stop h
        obtain ⟨count, hlimit, hread, rfl⟩ := Line.exists_tooManyDigits_of_isFatal hrender hfatal
        exact ⟨count, hlimit, hread, hmessage⟩

end Contribution

theorem Run.code_append {first second : Run} (hfirst : first.status ≠ .aborted)
    (hsecond : second.status ≠ .aborted) :
    (first.append second).status.code = max first.status.code second.status.code := by
  obtain ⟨stdout₁, stderr₁, status₁⟩ := first
  obtain ⟨stdout₂, stderr₂, status₂⟩ := second
  cases status₁ <;> cases status₂ <;> simp_all [append, Status.andThen, Status.code]

namespace Input

/-- What the lines of a text add. -/
def contributions (mode : Mode) (parseOnly : Bool) (text : String) : List Contribution :=
  (splitLines text.toList).map fun line => .ofLine mode parseOnly (String.ofList line)

theorem run_piped_eq_sequence (settings : Settings) (h : settings.verbose = false)
    (text : String) :
    (Input.piped text).run settings = Run.sequence
      ((contributions settings.mode settings.parseOnly text).map Contribution.run) := by
  rw [run, runLines_eq_sequence, contributions, List.map_map, List.map_map]
  refine congrArg Run.sequence (List.map_congr_left fun line _ => ?_)
  exact Contribution.ofRead_eq_run h (String.ofList line)

/-- A text behind one that ends with a new line is run after it. -/
theorem run_piped_append (settings : Settings) {first : String}
    (hlast : first.toList.getLast? = some '\n') (second : String) :
    (Input.piped (first ++ second)).run settings =
      ((Input.piped first).run settings).append ((Input.piped second).run settings) := by
  have hlines : splitLines (first ++ second).toList =
      splitLines first.toList ++ splitLines second.toList := by
    rw [String.toList_append]
    exact (isSplit_iff.mp
      ((isSplit_splitLines _).append hlast (isSplit_splitLines second.toList))).symm
  rw [run, run, run, hlines, List.map_append, runLines_append]

end Input

namespace Invocation

open Contribution (ofLine exitCode stops)

section Quiet

variable {arguments : List String} {options : Options} {variableValue : Option String}
  {mode : Mode} {warning : String}

/-- Without a log, nothing but the warning is written before the lines are run. -/
theorem run_piped_eq (parsed : Options.parse arguments = .ok options)
    (noLine : options.line = none) (quiet : options.verbose = false)
    (chosen : Invocation.mode options.mode variableValue = (mode, warning)) (text : String) :
    run arguments variableValue (.piped text) =
      let ran := (Input.piped text).run ⟨mode, options.parseOnly, false⟩
      ⟨ran.stdout, warning ++ ran.stderr, ran.status⟩ := by
  have hopening : (ofOptions options variableValue).opening.stderr = warning := by
    simp [ofOptions, chosen, Run.log, quiet]
  have hsettings : (ofOptions options variableValue).settings =
      ⟨mode, options.parseOnly, false⟩ := by
    simp [ofOptions, chosen, quiet]
  rw [run_of_line_eq_none parsed noLine, hsettings, hopening]

end Quiet

end Invocation
end ShellLowering
