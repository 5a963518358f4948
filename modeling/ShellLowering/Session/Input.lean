import ShellLowering.Session.Run

namespace ShellLowering

inductive Event where
  | line (text : String)
  | interrupt
  deriving DecidableEq, Repr

inductive Input where
  | piped (text : String)
  | terminal (events : List Event)
  deriving DecidableEq, Repr

namespace Input

def prompt : String := "cmdlower> "

/-- The lines of a text without their ends. A line ends at a new line, a carriage return or both
together; a text after the last end is a line too. -/
def splitLines : List Char → List (List Char)
  | [] => []
  | '\r' :: '\n' :: rest => [] :: splitLines rest
  | c :: rest =>
    if c = '\n' ∨ c = '\r' then [] :: splitLines rest
    else match splitLines rest with
      | [] => [[c]]
      | line :: lines => (c :: line) :: lines

/-- A typed line without the new lines at its end. -/
def chomp (line : String) : String :=
  String.ofList (line.toList.reverse.dropWhile (· = '\n')).reverse

def runLines (settings : Settings) : List String → Run
  | [] => .silent
  | line :: lines => (Run.ofRead settings line).append (runLines settings lines)

theorem runLines_append (settings : Settings) (first second : List String) :
    runLines settings (first ++ second) =
      (runLines settings first).append (runLines settings second) := by
  induction first with
  | nil => simp [runLines, Run.silent_append]
  | cons line lines ih => simp [runLines, ih, Run.append_assoc]

/-- The run of a terminal session. The prompt stands before every event and before the end of the
input; an interrupt and the end of the input move to a new line. -/
def runEvents (settings : Settings) : List Event → Run
  | [] => .output (prompt ++ "\n")
  | .interrupt :: events => (Run.output (prompt ++ "\n")).append (runEvents settings events)
  | .line text :: events =>
    ((Run.output prompt).append (Run.ofRead settings (chomp text))).append
      (runEvents settings events)

def run (settings : Settings) : Input → Run
  | .piped text => runLines settings ((splitLines text.toList).map String.ofList)
  | .terminal events => runEvents settings events

end Input
end ShellLowering
