import ShellLowering.Term.Basic

namespace ShellLowering.Line

/-- Why a line has no tokens. Columns count characters from zero and are those of the opening
parenthesis of the group. -/
inductive ReadError where
  | unterminatedQuote
  | unterminatedGroup (column : Nat)
  | emptyGroup (column : Nat)
  | unnamedGroup (column : Nat)
  | tooManyDigits (count : Nat)
  deriving DecidableEq, Repr

namespace ReadError

def message : ReadError → String
  | .unterminatedQuote => "unterminated quote"
  | .unterminatedGroup column =>
    .join ["unterminated sub-expression starting at column ", toString column]
  | .emptyGroup column => .join ["empty sub-expression at column ", toString column]
  | .unnamedGroup column =>
    .join ["sub-expression at column ", toString column, " must start with a name"]
  | .tooManyDigits count =>
    .join ["Exceeds the limit (", toString digitLimit,
      " digits) for integer string conversion: value has ", toString count,
      " digits; use sys.set_int_max_str_digits() to increase the limit"]

def shift (offset : Nat) : ReadError → ReadError
  | .unterminatedQuote => .unterminatedQuote
  | .unterminatedGroup column => .unterminatedGroup (offset + column)
  | .emptyGroup column => .emptyGroup (offset + column)
  | .unnamedGroup column => .unnamedGroup (offset + column)
  | .tooManyDigits count => .tooManyDigits count

end ReadError
end ShellLowering.Line
