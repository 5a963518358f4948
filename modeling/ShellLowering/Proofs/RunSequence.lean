import Mathlib.Data.List.Basic
import ShellLowering.Session.Invocation

namespace ShellLowering

section UpTo

variable {α β : Type} (p : α → Bool)

/-- The elements up to the first that has the property, which is one of them. -/
def upTo : List α → List α
  | [] => []
  | a :: as => if p a then [a] else a :: upTo as

theorem upTo_map (p : β → Bool) (f : α → β) (as : List α) :
    upTo p (as.map f) = (upTo (fun a => p (f a)) as).map f := by
  induction as with
  | nil => rfl
  | cons a as ih =>
      rw [List.map_cons, upTo, upTo, ih]
      split <;> rfl

end UpTo

namespace Run

def isCutShort (run : Run) : Bool :=
  run.status = .aborted

def isFaulty (run : Run) : Bool :=
  run.status = .failure

def sequence (runs : List Run) : Run :=
  runs.foldr append silent

theorem sequence_cons (run : Run) (runs : List Run) :
    sequence (run :: runs) = run.append (sequence runs) := rfl

theorem isCutShort_iff {run : Run} : run.isCutShort = true ↔ run.status = .aborted := by
  simp [isCutShort]

theorem stdout_append (first second : Run) :
    (first.append second).stdout =
      if first.isCutShort then first.stdout else first.stdout ++ second.stdout := by
  simp only [append, isCutShort_iff]
  split <;> rfl

theorem stderr_append (first second : Run) :
    (first.append second).stderr =
      if first.isCutShort then first.stderr else first.stderr ++ second.stderr := by
  simp only [append, isCutShort_iff]
  split <;> rfl

/-- What is written to one of the two outputs. -/
theorem write_sequence {write : Run → String} (hsilent : write silent = "")
    (happend : ∀ first second : Run, write (first.append second) =
      if first.isCutShort then write first else write first ++ write second) (runs : List Run) :
    write (sequence runs) = String.join ((upTo isCutShort runs).map write) := by
  induction runs with
  | nil => exact hsilent
  | cons run runs ih =>
      rw [sequence_cons, happend, upTo, ih]
      split <;> simp

theorem stdout_sequence (runs : List Run) :
    (sequence runs).stdout = String.join ((upTo isCutShort runs).map stdout) :=
  write_sequence rfl stdout_append runs

theorem stderr_sequence (runs : List Run) :
    (sequence runs).stderr = String.join ((upTo isCutShort runs).map stderr) :=
  write_sequence rfl stderr_append runs

/-- A faulty run is not made good by those after it. -/
theorem status_sequence (runs : List Run) :
    (sequence runs).status =
      if runs.any isCutShort then .aborted
      else if runs.any isFaulty then .failure
      else .success := by
  induction runs with
  | nil => rfl
  | cons run runs ih =>
      obtain ⟨stdout, stderr, status⟩ := run
      rw [sequence_cons, List.any_cons, List.any_cons]
      generalize runs.any isCutShort = cutShort at ih ⊢
      generalize runs.any isFaulty = faulty at ih ⊢
      cases status <;> cases cutShort <;> cases faulty <;>
        simp [append, isCutShort, isFaulty, Status.andThen, ih]

theorem sequence_append (first second : List Run) :
    sequence (first ++ second) = (sequence first).append (sequence second) := by
  induction first with
  | nil => exact (silent_append _).symm
  | cons run runs ih => rw [List.cons_append, sequence_cons, sequence_cons, ih, append_assoc]

/-- A last text is written unless the runs before it are cut short. -/
theorem sequence_append_output (runs : List Run) (text : String) :
    sequence (runs ++ [output text]) =
      ⟨(sequence runs).stdout ++ if (sequence runs).status = .aborted then "" else text,
        (sequence runs).stderr, (sequence runs).status⟩ := by
  have hlast : sequence [output text] = output text := append_silent (output text)
  rw [sequence_append, hlast]
  obtain ⟨stdout, stderr, status⟩ := sequence runs
  cases status <;> simp [append, output, Status.andThen]

end Run

namespace Input

theorem runLines_eq_sequence (settings : Settings) (lines : List String) :
    runLines settings lines = Run.sequence (lines.map (Run.ofRead settings)) := by
  induction lines with
  | nil => rfl
  | cons line lines ih => rw [runLines, ih, List.map_cons, Run.sequence_cons]

end Input

namespace Invocation

/-- What is written before any line goes to the error output and does not end the run. -/
theorem opening_append (options : Options) (variableValue : Option String) (run : Run) :
    (ofOptions options variableValue).opening.append run =
      ⟨run.stdout, (ofOptions options variableValue).opening.stderr ++ run.stderr, run.status⟩ := by
  simp [ofOptions, Run.append, Status.andThen]

theorem run_of_parse {arguments : List String} {options : Options}
    (parsed : Options.parse arguments = .ok options) (variableValue : Option String)
    (input : Input) :
    run arguments variableValue input = (ofOptions options variableValue).runWith input := by
  rw [run, parsed]

/-- Without a line among the arguments the input is run. -/
theorem run_of_line_eq_none {arguments : List String} {options : Options}
    (parsed : Options.parse arguments = .ok options) (noLine : options.line = none)
    (variableValue : Option String) (input : Input) :
    let invocation := ofOptions options variableValue
    let ran := input.run invocation.settings
    run arguments variableValue input =
      ⟨ran.stdout, invocation.opening.stderr ++ ran.stderr, ran.status⟩ := by
  rw [run_of_parse parsed, runWith]
  simp only [ofOptions, noLine]
  exact opening_append options variableValue _

end Invocation
end ShellLowering
