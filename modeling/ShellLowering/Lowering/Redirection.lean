import ShellLowering.Lowering.Basic
import ShellLowering.Tree.Basic

namespace ShellLowering

namespace Token

/-- The text of a token that is to become a part of a term. -/
def written (token : Token) : Except LoweringError String :=
  match token.text? with
  | some text => .ok text
  | none => .error .tooManyDigits

/-- Strings are only interpolated, other words are expanded in full, embedded terms stay. -/
def argument : Token → Except LoweringError Term
  | .embedded term => .ok term
  | .string value => .ok (.expansion .interpolation value)
  | token => return .expansion .full (← token.written)

def arguments (tokens : List Token) : Except LoweringError (List Term) :=
  tokens.mapM argument

/-- A number names a file descriptor, so it is not expanded, and it may have any digits. -/
def redirectTarget : Token → Term
  | .embedded term => term
  | .number value => .number value
  | .operator op => .expansion .redirectTarget op.text
  | .symbol name => .expansion .redirectTarget name
  | .string value => .expansion .redirectTarget value

end Token

/-- The actions of an operator; without a number in front, output goes to descriptor 1 and input
comes from 0. The operators for both outputs take no number. -/
def RedirectOp.actions (op : RedirectOp) (fd : Option Int) (target : Term) :
    List (FdAction Term) :=
  let sameOutput : FdAction Term := .of .set 2 (.number (.int 1))
  match op with
  | .output => [.of .output (fd.getD 1) target]
  | .input => [.of .input (fd.getD 0) target]
  | .append => [.of .append (fd.getD 1) target]
  | .outputBoth => [.of .output 1 target, sameOutput]
  | .appendBoth => [.of .append 1 target, sameOutput]
  | .readWrite => [.of .readWrite (fd.getD 0) target]
  | .duplicate => [.of .set (fd.getD 1) target]

namespace Redirection

def lower (redirection : Redirection) : Except LoweringError (List (FdAction Term)) :=
  match redirection.op.bind RedirectOp.ofText? with
  | some op => .ok (op.actions redirection.fd redirection.target.redirectTarget)
  | none => .error (.unknownRedirection redirection.op)

def lowerAll : List Redirection → Except LoweringError (List (FdAction Term))
  | [] => .ok []
  | redirection :: redirections => do
    let actions ← redirection.lower
    return actions ++ (← lowerAll redirections)

end Redirection
end ShellLowering
