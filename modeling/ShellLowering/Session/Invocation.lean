import ShellLowering.Options.Parser
import ShellLowering.Session.Input
import ShellLowering.Text.CharClass
import ShellLowering.Text.Lowercase

namespace ShellLowering

namespace Mode

def variableName : String := "CMDLOWER_MODE"

/-- The default mode that the value of the variable sets, with the warning that is written if it
sets none. Blanks around the value and its case do not matter. -/
def ofVariable (value : Option String) : Mode × String :=
  let name := Text.lowercase (Text.trim (value.getD ""))
  match ofName? name with
  | some mode => (mode, "")
  | none =>
    if name.isEmpty then (.interactive, "")
    else (.interactive,
      .join ["Warning: ignoring invalid ", variableName, "=", Text.quoted name, "\n"])

end Mode

/-- An invocation whose arguments are in order: its settings, the line among its arguments, and what
is written before any line is looked at. -/
structure Invocation where
  settings : Settings
  line : Option String
  opening : Run

namespace Invocation

/-- The mode of a session. The variable is looked at only if no mode is chosen. -/
def mode (choice : ModeChoice) (variableValue : Option String) : Mode × String :=
  match choice with
  | .chosen mode => (mode, "")
  | .unset => Mode.ofVariable variableValue
  | .cleared => Mode.ofVariable variableValue

def ofOptions (options : Options) (variableValue : Option String) : Invocation :=
  let (mode, warning) := mode options.mode variableValue
  let settings : Settings := ⟨mode, options.parseOnly, options.verbose⟩
  ⟨settings, options.line, ⟨"", warning ++ Run.log settings [.mode mode], .success⟩⟩

/-- The run of an invocation that gets no further than its arguments. -/
def stopped : OptionStop → Run
  | .help => .output Options.help
  | .refused e => ⟨"", Options.refusal e, .failure⟩

/-- The run of an invocation. The input is read only if there is no line among the arguments. -/
def runWith (invocation : Invocation) (input : Input) : Run :=
  invocation.opening.append <|
    match invocation.line with
    | some line => Run.ofLine invocation.settings line
    | none => input.run invocation.settings

def run (arguments : List String) (variableValue : Option String) (input : Input) : Run :=
  match Options.parse arguments with
  | .error stop => stopped stop
  | .ok options => (ofOptions options variableValue).runWith input

end Invocation
end ShellLowering
