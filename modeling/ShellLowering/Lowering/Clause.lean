import ShellLowering.Lowering.Pipeline

/-!
Clauses and command lists. A clause becomes nested conditionals: every pipeline but the last is
waited for and bound to a name, and the rest of the clause runs if its outcome allows.
-/

namespace ShellLowering

/-- Whether the operator goes on after a pipeline that failed, and not after one that succeeded. -/
def ClauseOp.continuesOnFailure : ClauseOp → Bool
  | .and => false
  | .or => true

def resultName (index : Nat) : String :=
  .join ["__pipeline_result_", toString index]

namespace Clause

/-- The test whether to go on after a pipeline, which a negation of the pipeline turns round. -/
def continueTest (op : Option String) (negated : Bool) (name : String) : Traced Term :=
  match op.bind ClauseOp.ofText? with
  | none => .fail (.unknownClauseOp op)
  | some op =>
    let test : Term := .condition (.ref name)
    pure (if op.continuesOnFailure ^^ negated then .negation test else test)

/-- Lowers a chain of pipelines, whose first one has the given index, from its end. -/
def traceChain (lowerPipeline : Pipeline → Traced Term) (index : Nat) (pipeline : Pipeline) :
    List (Option String × Pipeline) → Traced Term
  | [] => lowerPipeline pipeline
  | (op, next) :: others => do
    let rest ← traceChain lowerPipeline (index + 1) next others
    let value ← lowerPipeline pipeline
    let name := resultName index
    let test ← continueTest op pipeline.negated name
    return .binding name (.wait value) (.conditional test rest (.ref name))

def traceWith (lowerPipeline : Pipeline → Traced Term) (clause : Clause) : Traced Term :=
  match clause.pipelines with
  | [] => .fail .emptyClause
  | (_, first) :: others => traceChain lowerPipeline 0 first others

def trace (mode : Mode) (clause : Clause) : Traced Term :=
  clause.traceWith (Pipeline.trace mode)

def traceNamed (name : Option String) (clause : Clause) : Traced Term :=
  clause.traceWith (Pipeline.traceNamed name)

def lower (mode : Mode) (clause : Clause) : Except LoweringError Term :=
  (clause.trace mode).result

end Clause

namespace CommandList

/-- Lowers the first clause of a list. The clauses after a separator would need job control and are
left out. -/
def traceWith (lowerPipeline : Pipeline → Traced Term) (list : CommandList) : Traced Term :=
  match list.clauses with
  | [] => .fail .emptyList
  | [(_, clause)] => clause.traceWith lowerPipeline
  | (_, clause) :: others => do
    .note (.ignored others.length)
    clause.traceWith lowerPipeline

def trace (mode : Mode) (list : CommandList) : Traced Term :=
  list.traceWith (Pipeline.trace mode)

def traceNamed (name : Option String) (list : CommandList) : Traced Term :=
  list.traceWith (Pipeline.traceNamed name)

def lower (mode : Mode) (list : CommandList) : Except LoweringError Term :=
  (list.trace mode).result

end CommandList
end ShellLowering
