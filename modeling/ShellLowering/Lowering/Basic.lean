import ShellLowering.Term.Basic
import ShellLowering.Text.Quoted

namespace ShellLowering

/-- Interactive pipelines read from and write to the terminal unless they are redirected. Batch
pipelines get no wiring, so that their result can be used further. -/
inductive Mode where
  | interactive
  | batch
  deriving DecidableEq, Repr

namespace Mode

def name : Mode → String
  | .interactive => "interactive"
  | .batch => "batch"

def ofName? : String → Option Mode
  | "interactive" => some .interactive
  | "batch" => some .batch
  | _ => none

end Mode

/-- Why a parse tree has no command term. Parsed tokens fail with `namelessCommand` or
`tooManyDigits`, the others are faults of trees built by hand. With `tooManyDigits` the tree is
sound, but an integer in it cannot be written. -/
inductive LoweringError where
  | emptyCommand
  | namelessCommand
  | unknownRedirection (op : Option String)
  | unknownPipeOp (op : Option String)
  | emptyPipeline
  | unknownMode (name : Option String)
  | unknownClauseOp (op : Option String)
  | emptyClause
  | emptyList
  | tooManyDigits
  deriving DecidableEq, Repr

def LoweringError.message : LoweringError → String
  | .emptyCommand => "empty command"
  | .namelessCommand => "command has redirections but no command name"
  | .unknownRedirection op => .join ["unknown redirection operator: ", Text.quotedOption op]
  | .unknownPipeOp op => .join ["unknown pipe operator: ", Text.quotedOption op]
  | .emptyPipeline => "empty pipeline"
  | .unknownMode name => .join ["unknown pipeline mode: ", Text.quotedOption name]
  | .unknownClauseOp op => .join ["unknown clause operator: ", Text.quotedOption op]
  | .emptyClause => "empty clause"
  | .emptyList => "empty command list"
  | .tooManyDigits => Number.limitMessage

end ShellLowering
