import ShellLowering.Lowering.Command

namespace ShellLowering

def PipeOp.combinator : PipeOp → String
  | .pipe => "pipe"
  | .multi => "pipe-multi"
  | .filter => "pipe-filter"
  | .reduce => "pipe-reduce"

/-- Whether the operator hands its value on as the last argument of the call after it. -/
def PipeOp.defersTarget : PipeOp → Bool
  | .pipe => true
  | .multi => true
  | .filter => false
  | .reduce => false

/-- The heads of calls that are run as they are: control forms, definitions, and the call of an
external command. -/
def specialHeads : List String :=
  ["do", "if", "if-not", "when", "when-not", "cond", "case", "let", "loop", "recur", "for",
   "doseq", "dotimes", "while", "try", "throw", "and", "or", "fn", "defn", "defmacro", "def",
   "letfn", "sh"]

/-- Whether a term takes a piped value without leaving its last argument open. -/
def Term.isSpecial : Term → Bool
  | .external .. => true
  | .sequence _ => true
  | .binding .. => true
  | .conditional .. => true
  | .form head _ => head ∈ specialHeads
  | _ => false

structure Wiring where
  first : List (FdAction Term)
  last : List (FdAction Term)

/-- The default wiring of a pipeline of so many commands. Only with commands in between does the
first one write to a pipe. -/
def Mode.wiring (mode : Mode) (count : Nat) : Wiring :=
  let stdio := fun input output : Endpoint =>
    [FdAction.of .set 0 (Term.endpoint input), .of .set 1 (.endpoint output),
      .of .set 2 (.endpoint .stderr)]
  match mode with
  | .interactive => ⟨stdio .stdin (if 2 < count then .pipe else .stdout), stdio .pipe .stdout⟩
  | .batch => ⟨[], []⟩

namespace Pipeline

def compose (op : Option String) (source target : Term) : Traced Term :=
  match op.bind PipeOp.ofText? with
  | none => .fail (.unknownPipeOp op)
  | some op =>
    if op.defersTarget && !target.isSpecial then do
      .note (.deferred target op)
      return .pipeCall op.combinator source (.deferred target)
    else pure (.pipeCall op.combinator source target)

/-- Pipes a source through the commands that follow it; the last of them is wired. -/
def traceAfter (lastWiring : List (FdAction Term)) (source : Term) :
    List (Option String × Command) → Traced Term
  | [] => pure source
  | (op, command) :: commands => do
    let target ← command.trace (if commands.isEmpty then lastWiring else [])
    let call ← compose op source target
    traceAfter lastWiring call commands

/-- Lowers a pipeline. Whether it is negated matters only to the clause around it. -/
def trace (mode : Mode) (pipeline : Pipeline) : Traced Term :=
  match pipeline.commands with
  | [] => .fail .emptyPipeline
  | (_, first) :: commands => do
    let wiring := mode.wiring pipeline.commands.length
    let source ← first.trace wiring.first
    traceAfter wiring.last source commands

/-- Lowers a pipeline in the mode of the given name. An empty pipeline is reported before an unknown
mode. -/
def traceNamed (name : Option String) (pipeline : Pipeline) : Traced Term :=
  match name.bind Mode.ofName? with
  | some mode => pipeline.trace mode
  | none => .fail (if pipeline.commands.isEmpty then .emptyPipeline else .unknownMode name)

def lower (mode : Mode) (pipeline : Pipeline) : Except LoweringError Term :=
  (pipeline.trace mode).result

end Pipeline
end ShellLowering
