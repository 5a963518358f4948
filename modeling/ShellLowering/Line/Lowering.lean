import ShellLowering.Data
import ShellLowering.Grammar.Parser
import ShellLowering.Line.Reader
import ShellLowering.Lowering.Clause
import ShellLowering.Term.Data
import ShellLowering.Tree.Outline

namespace ShellLowering

namespace Line

/-- All that can go wrong between a line and its printed form. A tree or a term is `unwritable` if
an integer in it has too many digits. -/
inductive Fault where
  | unread (e : ReadError)
  | ungrammatical (e : GrammarError)
  | unlowered (e : LoweringError)
  | invalidMode (name : Option String)
  | unwritable
  deriving DecidableEq, Repr

namespace Fault

def message : Fault → String
  | .unread e => e.message
  | .ungrammatical e => e.message
  | .unlowered e => e.message
  | .invalidMode name => .join [Text.quotedOption name, " is not a valid Mode"]
  | .unwritable => Number.limitMessage

/-- Whether the fault ends a session. The faults of a line concern that line alone, except digits
that are too many; a mode that is not valid concerns all lines. -/
def isFatal : Fault → Bool
  | .unread (.tooManyDigits _) => true
  | .unlowered .tooManyDigits => true
  | .invalidMode _ => true
  | .unwritable => true
  | _ => false

end Fault

end Line

def Mode.request (name : Option String) : Except Line.Fault Mode :=
  match name.bind Mode.ofName? with
  | some mode => .ok mode
  | none => .error (.invalidMode name)

namespace Line

def treeOfTokens (tokens : List Token) : Except Fault CommandList :=
  (CommandList.parse tokens).mapError .ungrammatical

def lowerTokens (mode : Mode) (tokens : List Token) : Except Fault Term := do
  let list ← treeOfTokens tokens
  (list.lower mode).mapError .unlowered

/-- The tokens of a line, where a failure to read counts among the faults of the line. -/
def tokens (line : String) : Except Fault (List Token) :=
  (read line).mapError .unread

def tree (line : String) : Except Fault CommandList := do
  treeOfTokens (← tokens line)

def lower (mode : Mode) (line : String) : Except Fault Term := do
  lowerTokens mode (← tokens line)

theorem lowerTokens_of_parse {tokens : List Token} {list : CommandList}
    (h : CommandList.parse tokens = .ok list) (mode : Mode) :
    lowerTokens mode tokens = (list.lower mode).mapError .unlowered := by
  rw [lowerTokens, treeOfTokens, h]
  rfl

theorem lower_of_read {line : String} {tokens : List Token} (h : read line = .ok tokens)
    (mode : Mode) : lower mode line = lowerTokens mode tokens := by
  rw [lower, Line.tokens, h]
  rfl

/-- The term of tokens in the mode of a name. The mode is looked at before the tokens. -/
def lowerTokensNamed (name : Option String) (tokens : List Token) : Except Fault Term := do
  lowerTokens (← Mode.request name) tokens

/-- The term of a line in the mode of a name. The line is read before the mode is looked at. -/
def lowerNamed (name : Option String) (line : String) : Except Fault Term := do
  lowerTokensNamed name (← tokens line)

structure Report where
  notes : List Note
  result : Except Fault String

/-- A text that is to be printed. -/
def printed : Option String → Except Fault String
  | some text => .ok text
  | none => .error .unwritable

/-- The printed form of a parse tree: its outline, or the data of its term. -/
def reportTree (mode : Mode) (parseOnly : Bool) (list : CommandList) : Report :=
  if parseOnly then ⟨[], printed list.outline?⟩
  else
    let lowered := list.trace mode
    ⟨lowered.notes, do printed (← lowered.result.mapError .unlowered).data.json?⟩

def report (mode : Mode) (parseOnly : Bool) (line : String) : Report :=
  match tokens line with
  | .error fault => ⟨[], .error fault⟩
  | .ok tokens =>
    match treeOfTokens tokens with
    | .error fault => ⟨[], .error fault⟩
    | .ok list =>
      let printed := reportTree mode parseOnly list
      ⟨.parsed list.clauses.length tokens.length :: printed.notes, printed.result⟩

def render (mode : Mode) (parseOnly : Bool) (line : String) : Except Fault String :=
  (report mode parseOnly line).result

theorem render_outline (mode : Mode) (line : String) :
    render mode true line = (do printed (← tree line).outline?) := by
  cases read : tokens line with
  | error fault => simp [render, report, tree, read, bind, Except.bind]
  | ok tokens =>
    cases parsed : treeOfTokens tokens <;>
      simp [render, report, reportTree, tree, read, parsed, bind, Except.bind]

theorem render_term (mode : Mode) (line : String) :
    render mode false line = (do printed (← lower mode line).data.json?) := by
  cases read : tokens line with
  | error fault => simp [render, report, lower, read, bind, Except.bind]
  | ok tokens =>
    cases parsed : treeOfTokens tokens <;>
      simp [render, report, reportTree, lower, lowerTokens, CommandList.lower, read, parsed, bind,
        Except.bind]

/-- What is printed for a line in the mode of a name, which is looked at first. -/
def renderNamed (name : Option String) (parseOnly : Bool) (line : String) :
    Except Fault String := do
  render (← Mode.request name) parseOnly line

end Line
end ShellLowering
