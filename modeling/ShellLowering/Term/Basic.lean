import ShellLowering.Decimal.Layout

namespace ShellLowering

/-- The most digits that an integer is read from or written with. -/
def digitLimit : Nat := 4300

/-- The numbers that a token or a term may hold. Truth values count as numbers: a flag may stand
where a number is expected. -/
inductive Number where
  | int (value : Int)
  | float (value : Float)
  | flag (value : Bool)

namespace Number

/-- The text of an integer. There is none if the integer has too many digits. -/
def integerText? (value : Int) : Option String :=
  if digitLimit < (toString value.natAbs).length then none else some (toString value)

theorem integerText?_natCast {n : Nat} (h : (toString n).length ≤ digitLimit) :
    integerText? n = some (toString n) :=
  if_neg (Nat.not_lt.mpr h)

/-- The words for the two truth values are capitalized. -/
def text? : Number → Option String
  | .int value => integerText? value
  | .float value => some (Decimal.Layout.plain.float value)
  | .flag true => some "True"
  | .flag false => some "False"

/-- What is said about an integer that has no text. -/
def limitMessage : String :=
  .join ["Exceeds the limit (", toString digitLimit, " digits) for integer string conversion; ",
    "use sys.set_int_max_str_digits() to increase the limit"]

/-- The file descriptor that a number names: only an integer does. -/
def fd? : Number → Option Int
  | .int value => some value
  | _ => none

end Number

/-- Where the default wiring of a pipeline points a file descriptor. -/
inductive Endpoint where
  | stdin
  | stdout
  | stderr
  | pipe
  deriving DecidableEq, Repr

inductive FdAction.Kind where
  | plain
  | output
  | input
  | append
  | readWrite
  | set
  deriving DecidableEq, Repr

/-- A step in the wiring of a command: something is done with a file descriptor and a target. -/
structure FdAction (τ : Type) where
  kind : FdAction.Kind
  fd : Option Int
  target : τ

/-- What the expander is asked to do with a word: nothing in particular, everything, only
interpolation, or what suits the target of a redirection. -/
inductive Expansion where
  | plain
  | full
  | interpolation
  | redirectTarget
  deriving DecidableEq, Repr

/-- Command terms. An external command without redirections has no redirection list, which is not
the same as an empty one. A `deferred` call waits for a piped value as its last argument. -/
inductive Term where
  | absent
  | number (value : Number)
  | text (value : String)
  | endpoint (value : Endpoint)
  | tuple (items : List Term)
  | fdAction (action : FdAction Term)
  | expansion (kind : Expansion) (value : String)
  | builtin (name : String) (args : List Term)
  | external (name : Term) (args : List Term) (redirects : Option (List (FdAction Term)))
  | form (head : String) (args : List Term)
  | sequence (steps : List Term)
  | deferred (term : Term)
  | pipeCall (combinator : String) (source target : Term)
  | wait (term : Term)
  | condition (term : Term)
  | negation (term : Term)
  | ref (name : String)
  | binding (name : String) (value body : Term)
  | conditional (test onTrue onFalse : Term)

namespace FdAction

/-- The action that opens or sets a file descriptor. -/
abbrev of {τ : Type} (kind : Kind) (fd : Int) (target : τ) : FdAction τ :=
  ⟨kind, some fd, target⟩

end FdAction
end ShellLowering
