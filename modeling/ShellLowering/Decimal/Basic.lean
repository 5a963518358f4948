namespace ShellLowering

/-- The number `digits * 10 ^ exponent`. -/
structure Decimal where
  digits : Nat
  exponent : Int
  deriving DecidableEq, Repr

namespace Decimal

/-- For a number that is not zero, the place of its highest digit: it is below `10 ^ scale` and
not below `10 ^ (scale - 1)`. -/
def scale (d : Decimal) : Int :=
  (Nat.toDigits 10 d.digits).length + d.exponent

def infinity : Float := Float.ofBits 0x7ff0000000000000

def notANumber : Float := Float.ofBits 0x7ff8000000000000

/-- The nearest floating-point number. The bounds on the scale leave out only what is far beyond
the largest number or far below half of the smallest, so that no huge power of ten is computed. -/
def toFloat (d : Decimal) : Float :=
  if d.digits = 0 ∨ d.scale < -330 then Float.ofScientific 0 false 0
  else if 310 < d.scale then infinity
  else Float.ofScientific d.digits (decide (d.exponent < 0)) d.exponent.natAbs

/-- The same number without zeros at the end of its digits, stripped at most `limit` times. -/
def strip (d : Decimal) : Nat → Decimal
  | 0 => d
  | limit + 1 =>
    if d.digits % 10 = 0 ∧ d.digits ≠ 0 then strip ⟨d.digits / 10, d.exponent + 1⟩ limit else d

end Decimal
end ShellLowering
