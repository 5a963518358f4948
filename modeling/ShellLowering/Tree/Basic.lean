import ShellLowering.Token

/-!
The parse tree of a command line: commands in pipelines, pipelines in clauses, clauses in a command
list. Each child carries the operator before it. A tree may be built by hand, so no operator is
checked here and any level may be empty.
-/

namespace ShellLowering

/-- A redirection as it is written, with the file descriptor in front if there is one. -/
structure Redirection where
  op : Option String
  target : Token
  fd : Option Int

inductive Item where
  | word (token : Token)
  | redirect (redirection : Redirection)

/-- A simple command: its words and redirections in the order of the line. -/
structure Command where
  items : List Item

structure Pipeline where
  commands : List (Option String × Command)
  negated : Bool

structure Clause where
  pipelines : List (Option String × Pipeline)

structure CommandList where
  clauses : List (Option String × Clause)

namespace Item

def word? : Item → Option Token
  | .word token => some token
  | .redirect _ => none

def redirection? : Item → Option Redirection
  | .word _ => none
  | .redirect redirection => some redirection

end Item

namespace Command

def words (command : Command) : List Token :=
  command.items.filterMap Item.word?

def redirections (command : Command) : List Redirection :=
  command.items.filterMap Item.redirection?

end Command
end ShellLowering
