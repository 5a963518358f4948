import ShellLowering.Operator
import ShellLowering.Text.Quoted

namespace ShellLowering

/-- What stands where an argument or a command is needed: an operator, or nothing more. -/
inductive Found where
  | operator (op : Operator) (index : Nat)
  | endOfInput
  deriving DecidableEq, Repr

inductive GrammarError where
  | emptyLine
  | expectedCommand (found : Found)
  | missingTarget (op : RedirectOp) (found : Found)
  | missingPipeline (op : ClauseOp)
  | missingCommand
  deriving DecidableEq, Repr

namespace Found

def index? : Found → Option Nat
  | .operator _ index => some index
  | .endOfInput => none

def describe : Found → String
  | .operator op _ => Text.quoted op.text
  | .endOfInput => "end of input"

end Found

namespace GrammarError

/-- The index of the first token at fault; there is none if tokens are missing at the end. -/
def position : GrammarError → Option Nat
  | .emptyLine => none
  | .expectedCommand found => found.index?
  | .missingTarget _ found => found.index?
  | .missingPipeline _ => none
  | .missingCommand => none

def cause : GrammarError → String
  | .emptyLine => "empty command line"
  | .expectedCommand found => .join ["expected a command, found ", found.describe]
  | .missingTarget op found =>
    .join ["redirection ", Text.quoted op.text, " requires a target, found ", found.describe]
  | .missingPipeline op => .join ["missing pipeline after ", Text.quoted op.text]
  | .missingCommand => .join ["missing command after ", Text.quoted Connector.background.text]

def place (e : GrammarError) : String :=
  match e.position with
  | some index => .join ["token ", toString index]
  | none => "end of input"

def message (e : GrammarError) : String :=
  .join [e.cause, " (at ", e.place, ")"]

end GrammarError
end ShellLowering
