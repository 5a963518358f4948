import ShellLowering.Lowering.Redirection
import ShellLowering.Lowering.Traced

namespace ShellLowering

/-- The commands that the evaluator itself carries out. -/
def builtinNames : List String :=
  ["cd", "exit", "quit"]

def commandNameHead : String := "cmd-helper"

/-- Whether a term stands for a command by itself: all do but the calls that compute a name. -/
def Term.isCommand : Term → Bool
  | .form head _ => head != commandNameHead
  | _ => true

def Token.commandName : Token → Except LoweringError Term
  | .embedded term => .ok term
  | token => return .text (← token.written)

namespace Command

/-- The term that a command starts with, and the words after it, if it starts with a term that
stands for a command. -/
def embedded? (command : Command) : Option (Term × List Token) :=
  match command.items with
  | .word (.embedded term) :: rest =>
    if term.isCommand then some (term, rest.filterMap Item.word?) else none
  | _ => none

/-- An external command. The wiring comes before the redirections of the command itself. -/
def lowerExternal (command : Command) (wiring : List (FdAction Term)) (name : Token)
    (args : List Term) : Except LoweringError Term := do
  let actions := wiring ++ (← Redirection.lowerAll command.redirections)
  return .external (← name.commandName) args (if actions.isEmpty then none else some actions)

/-- The builtin that a word names; only a bare word names one. -/
def builtin? : Token → Option String
  | .symbol name => if name ∈ builtinNames then some name else none
  | _ => none

/-- Lowers a command. Only external commands are wired and redirected. -/
def trace (command : Command) (wiring : List (FdAction Term)) : Traced Term :=
  if command.items.isEmpty then .fail .emptyCommand
  else match command.embedded? with
    | some (term, []) => pure term
    | some (term, words) => do
      let args ← .ofExcept (Token.arguments words)
      return .sequence (term :: args)
    | none =>
      match command.words with
      | [] => .fail .namelessCommand
      | name :: params => do
        let args ← .ofExcept (Token.arguments params)
        match builtin? name with
        | some builtin =>
          .note (.builtin builtin args.length)
          return .builtin builtin args
        | none => .ofExcept (command.lowerExternal wiring name args)

def lower (command : Command) (wiring : List (FdAction Term)) : Except LoweringError Term :=
  (command.trace wiring).result

end Command
end ShellLowering
