import ShellLowering.Tree.Basic

namespace ShellLowering

namespace Item

/-- A token as it stands in a printout: strings are quoted. -/
def tokenOutline? : Token → Option String
  | .string value => some (Text.quoted value)
  | token => token.text?

/-- A redirection keeps its file descriptor and operator together, before the target. -/
def outline? : Item → Option String
  | .word token => tokenOutline? token
  | .redirect ⟨op, target, fd⟩ => do
    let number ← fd.elim (some "") Number.integerText?
    return number ++ op.getD Text.absentWord ++ " " ++ (← tokenOutline? target)

end Item

namespace Tree

/-- A group's headline and the lines of its children, two blanks deeper. The operator before a
child has a line of its own. -/
def groupLines (headline : String) (children : List (Option String × List String)) : List String :=
  headline :: children.flatMap fun (op, lines) =>
    (op.elim [] fun op => ["  OP   " ++ op]) ++ lines.map ("  " ++ ·)

/-- The lines of a group, if all its children have lines. -/
def groupLines? {α : Type} (lines? : α → Option (List String)) (headline : String)
    (children : List (Option String × α)) : Option (List String) := do
  let children ← children.mapM fun (op, child) => return (op, ← lines? child)
  return groupLines headline children

end Tree

/-- The lines of a printout. There are none if an integer in the tree has too many digits. -/
def Command.lines? (command : Command) : Option (List String) := do
  let items ← command.items.mapM Item.outline?
  return ["CMD  " ++ " ".intercalate items]

def Pipeline.lines? (pipeline : Pipeline) : Option (List String) :=
  Tree.groupLines? Command.lines? (if pipeline.negated then "PIPE !" else "PIPE") pipeline.commands

def Clause.lines? (clause : Clause) : Option (List String) :=
  Tree.groupLines? Pipeline.lines? "CLAUSE" clause.pipelines

def CommandList.lines? (list : CommandList) : Option (List String) :=
  Tree.groupLines? Clause.lines? "LIST" list.clauses

inductive Tree where
  | command (command : Command)
  | pipeline (pipeline : Pipeline)
  | clause (clause : Clause)
  | list (list : CommandList)

namespace Tree

def lines? : Tree → Option (List String)
  | .command group => group.lines?
  | .pipeline group => group.lines?
  | .clause group => group.lines?
  | .list group => group.lines?

def outline? (trees : List Tree) : Option String := do
  let lines ← trees.mapM lines?
  return if lines.flatten.isEmpty then "<empty>" else "\n".intercalate lines.flatten

end Tree

def CommandList.outline? (list : CommandList) : Option String :=
  Tree.outline? [.list list]

end ShellLowering
