import ShellLowering.Line.Lowering
import ShellLowering.Options.Basic

namespace ShellLowering

/-- How a run ends: well, with a faulty line in it, or cut short. -/
inductive Status where
  | success
  | failure
  | aborted
  deriving DecidableEq, Repr

def Status.code : Status → Nat
  | .success => 0
  | .failure => 2
  | .aborted => 1

structure Run where
  stdout : String
  stderr : String
  status : Status
  deriving DecidableEq, Repr

structure Settings where
  mode : Mode
  parseOnly : Bool
  verbose : Bool
  deriving DecidableEq, Repr

namespace Status

/-- The status of one run after another that was not cut short: a failure is not made good by what
comes later. -/
def andThen : Status → Status → Status
  | .failure, .success => .failure
  | _, second => second

end Status

namespace Run

def silent : Run := ⟨"", "", .success⟩

def output (text : String) : Run := ⟨text, "", .success⟩

/-- One run after another. Nothing follows a run that was cut short. -/
def append (first second : Run) : Run :=
  if first.status = .aborted then first
  else ⟨first.stdout ++ second.stdout, first.stderr ++ second.stderr,
    first.status.andThen second.status⟩

theorem silent_append (run : Run) : silent.append run = run := by
  simp [append, silent, Status.andThen]

theorem append_silent (run : Run) : run.append silent = run := by
  obtain ⟨stdout, stderr, status⟩ := run
  cases status <;> simp [append, silent, Status.andThen]

theorem append_assoc (first second third : Run) :
    (first.append second).append third = first.append (second.append third) := by
  obtain ⟨stdout₁, stderr₁, status₁⟩ := first
  obtain ⟨stdout₂, stderr₂, status₂⟩ := second
  obtain ⟨stdout₃, stderr₃, status₃⟩ := third
  cases status₁ <;> cases status₂ <;> cases status₃ <;>
    simp [append, Status.andThen, String.append_assoc]

/-- The notes of a session that is logged, a line each. A note without a message has none. -/
def log (settings : Settings) (notes : List Note) : String :=
  if settings.verbose then String.join ((notes.filterMap Note.line?).map (· ++ "\n")) else ""

def complaint (fault : Line.Fault) : String :=
  .join [toolName, if fault.isFatal then ": error: " else ": ", fault.message, "\n"]

def ofLine (settings : Settings) (line : String) : Run :=
  let report := Line.report settings.mode settings.parseOnly line
  let log := log settings report.notes
  match report.result with
  | .ok text => ⟨text ++ "\n", log, .success⟩
  | .error fault =>
    ⟨"", log ++ complaint fault, if fault.isFatal then .aborted else .failure⟩

/-- The run of a line that is read: a blank line is passed over. -/
def ofRead (settings : Settings) (line : String) : Run :=
  if Text.isBlankText line then silent else ofLine settings line

end Run
end ShellLowering
