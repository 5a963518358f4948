import ShellLowering.Operator
import ShellLowering.Term.Display

/-!
Tokens: what a line is read into and what the grammar groups. A word or string that is spelled like
an operator acts as that operator, so it is never an argument.
-/

namespace ShellLowering

inductive Token where
  | operator (op : Operator)
  | symbol (name : String)
  | string (value : String)
  | number (value : Number)
  | embedded (term : Term)

inductive Token.Category where
  | redirect
  | pipe
  | clause
  | background
  | argument
  deriving DecidableEq, Repr

namespace Token

/-- The text that may spell an operator; numbers and embedded terms have none. -/
def word? : Token → Option String
  | .operator op => some op.text
  | .symbol name => some name
  | .string value => some value
  | .number _ => none
  | .embedded _ => none

/-- The operator that the token acts as. -/
def operator? : Token → Option Operator
  | .operator op => some op
  | .symbol name => Operator.ofText? name
  | .string value => Operator.ofText? value
  | .number _ => none
  | .embedded _ => none

def category (token : Token) : Category :=
  match token.operator? with
  | some (.redirect _) => .redirect
  | some (.connect (.pipe _)) => .pipe
  | some (.connect (.clause _)) => .clause
  | some (.connect .background) => .background
  | none => .argument

def isArgument (token : Token) : Bool :=
  token.category = .argument

theorem isArgument_iff {token : Token} : token.isArgument = true ↔ token.operator? = none := by
  rcases h : token.operator? with _ | op | op | op | _ <;> simp [isArgument, category, h]

def redirect? (token : Token) : Option RedirectOp :=
  match token.operator? with
  | some (.redirect op) => some op
  | _ => none

def connector? (token : Token) : Option Connector :=
  match token.operator? with
  | some (.connect connector) => some connector
  | _ => none

/-- The file descriptor that the token names when a redirection follows it. -/
def fd? : Token → Option Int
  | .number value => value.fd?
  | _ => none

/-- The written form of a token. There is none if an integer in it has too many digits. -/
def text? : Token → Option String
  | .number value => value.text?
  | .embedded term => term.display?
  | token => token.word?

inductive BuildError where
  | unknownOperator (text : String)
  deriving DecidableEq, Repr

def BuildError.message : BuildError → String
  | .unknownOperator text => "unknown operator: " ++ Text.quoted text

def ofOperatorText (text : String) : Except BuildError Token :=
  match Operator.ofText? text with
  | some op => .ok (.operator op)
  | none => .error (.unknownOperator text)

theorem text?_of_operator? {token : Token} {op : Operator} (h : token.operator? = some op) :
    token.text? = some op.text := by
  cases token <;> simp_all [operator?, text?, word?, Operator.ofText?_eq_some_iff]

end Token
end ShellLowering
