import ShellLowering.Grammar.Segment

namespace ShellLowering

/-- A command list laid open at its first command: what follows it in its pipeline, in its clause
and in the list. -/
structure Spine where
  first : Stage
  commands : List (Option String × Command)
  pipelines : List (Option String × Pipeline)
  clauses : List (Option String × Clause)

namespace Spine

def single (stage : Stage) : Spine :=
  ⟨stage, [], [], []⟩

def pipeline (spine : Spine) : Pipeline :=
  ⟨(none, spine.first.command) :: spine.commands, spine.first.negated⟩

def clause (spine : Spine) : Clause :=
  ⟨(none, spine.pipeline) :: spine.pipelines⟩

def list (spine : Spine) : CommandList :=
  ⟨(none, spine.clause) :: spine.clauses⟩

/-- Puts a stage in front; the connector tells how much of the list stays together. -/
def cons (stage : Stage) (connector : Connector) (spine : Spine) : Spine :=
  let op := some connector.text
  match connector with
  | .pipe _ =>
    ⟨stage, (op, spine.first.command) :: spine.commands, spine.pipelines, spine.clauses⟩
  | .clause _ => ⟨stage, [], (op, spine.pipeline) :: spine.pipelines, spine.clauses⟩
  | .background => ⟨stage, [], [], (op, spine.clause) :: spine.clauses⟩

def ofStages (first : Stage) : List (Connector × Stage) → Spine
  | [] => single first
  | (connector, second) :: others => cons first connector (ofStages second others)

end Spine

def CommandList.parse (tokens : List Token) : Except GrammarError CommandList := do
  let segments := Segments.ofTokens tokens
  let (stage, stages) ← Stage.ofSegments none 0 segments.first segments.others
  return (Spine.ofStages stage stages).list

end ShellLowering
