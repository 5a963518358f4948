import ShellLowering.Decimal.Basic
import ShellLowering.Text.CharClass

namespace ShellLowering.Decimal

open Text

/-- Drops each underscore that stands between two digits. -/
def ungroup (afterDigit : Bool) : List Char → List Char
  | '_' :: c :: rest =>
    if afterDigit && isDecimalDigit c then c :: ungroup true rest
    else '_' :: ungroup false (c :: rest)
  | c :: rest => c :: ungroup (isDecimalDigit c) rest
  | [] => []

def leadingDigits (s : List Char) : List Nat × List Char :=
  ((s.takeWhile isDecimalDigit).filterMap digitValue?, s.dropWhile isDecimalDigit)

def leadingSign : List Char → Bool × List Char
  | '-' :: rest => (true, rest)
  | '+' :: rest => (false, rest)
  | s => (false, s)

/-- The power of ten that ends a numeral, which may be left out. -/
def power? : List Char → Option Int
  | [] => some 0
  | e :: rest =>
    let (negative, unsigned) := leadingSign rest
    match leadingDigits unsigned with
    | ([], _) => none
    | (digits, []) =>
      if e = 'e' ∨ e = 'E' then
        some (if negative then -(digitsValue digits : Int) else digitsValue digits)
      else none
    | _ => none

/-- Digits with at most one point among them and at least one digit, then the power of ten. -/
def ofNumeral? (s : List Char) : Option Decimal :=
  let (whole, afterWhole) := leadingDigits s
  let (fraction, afterFraction) := match afterWhole with
    | '.' :: rest => leadingDigits rest
    | rest => ([], rest)
  if whole ++ fraction = [] then none
  else (power? afterFraction).map fun power =>
    ⟨digitsValue (whole ++ fraction), power - fraction.length⟩

/-- A numeral without its sign; the words for infinity and for no number are read in any case. -/
def unsignedFloat? (s : List Char) : Option Float :=
  let word := String.ofList (s.map Char.toLower)
  if word = "inf" ∨ word = "infinity" then some infinity
  else if word = "nan" then some notANumber
  else (ofNumeral? s).map toFloat

/-- The floating-point number that a text names. Blanks may stand around the numeral, and its digits
may be of any script. -/
def float? (s : String) : Option Float :=
  let (negative, unsigned) := leadingSign (ungroup false (trim s).toList)
  (unsignedFloat? unsigned).map fun x => if negative then -x else x

end ShellLowering.Decimal
