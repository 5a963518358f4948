import ShellLowering.Decimal.Basic

/-!
The shortest decimal that names a floating-point number: the fewest digits that read back as the
number, and of these the nearest to it. Everything is computed on natural numbers.
-/

namespace ShellLowering

def twoPow (n : Nat) : Nat := Nat.pow 2 n

def tenPow (n : Nat) : Nat := Nat.pow 10 n

/-- The fields of a floating-point number: its sign, its exponent with the offset of the format, and
the fraction. -/
structure FloatFields where
  negative : Bool
  exponent : Nat
  fraction : Nat

namespace FloatFields

def ofFloat (x : Float) : FloatFields :=
  let bits := x.toBits.toNat
  ⟨bits / twoPow 63 = 1, bits / twoPow 52 % twoPow 11, bits % twoPow 52⟩

/-- The highest exponent is that of the infinities, and with a fraction of what is no number. -/
def isFinite (fields : FloatFields) : Bool :=
  fields.exponent < 2047

def isZero (fields : FloatFields) : Bool :=
  fields.exponent = 0 && fields.fraction = 0

end FloatFields

/-- The number `significand * 2 ^ exponent`. The flag says that the floating-point number below it
is only half as far away as the one above. -/
structure Dyadic where
  significand : Nat
  exponent : Int
  narrowBelow : Bool

namespace Dyadic

/-- The magnitude of a finite floating-point number. The lowest exponent is that of the numbers
without a hidden digit. -/
def ofFields (fields : FloatFields) : Dyadic :=
  if fields.exponent = 0 then ⟨fields.fraction, -1074, false⟩
  else ⟨twoPow 52 + fields.fraction, (fields.exponent : Int) - 1075,
    fields.fraction = 0 && 1 < fields.exponent⟩

def compareDecimal (d : Decimal) (n : Nat) (j : Int) : Ordering :=
  compare (d.digits * tenPow d.exponent.toNat * twoPow (-j).toNat)
    (n * twoPow j.toNat * tenPow (-d.exponent).toNat)

/-- Whether the decimal lies among the numbers that are rounded to `x`: between the two points
halfway to its neighbours, which belong to it when its significand is even. -/
def isNamedBy (x : Dyadic) (d : Decimal) : Bool :=
  let lower := if x.narrowBelow then 4 * x.significand - 1 else 4 * x.significand - 2
  let upper := 4 * x.significand + 2
  let fromLower := compareDecimal d lower (x.exponent - 2)
  let fromUpper := compareDecimal d upper (x.exponent - 2)
  let ends := x.significand % 2 == 0
  (fromLower == .gt || (ends && fromLower == .eq)) &&
    (fromUpper == .lt || (ends && fromUpper == .eq))

/-- The least `k` with the number below `10 ^ k`. The binary logarithm gives it up to two steps. -/
def scale (x : Dyadic) : Int :=
  let estimate := (Nat.log2 x.significand + x.exponent) * 30103 / 100000
  let below := fun k : Int => compareDecimal ⟨1, k⟩ x.significand x.exponent == .gt
  if below estimate then estimate
  else if below (estimate + 1) then estimate + 1 else estimate + 2

/-- The last multiple of `10 ^ exponent` that is not above the number. -/
def floorTo (x : Dyadic) (exponent : Int) : Decimal :=
  ⟨x.significand * twoPow x.exponent.toNat * tenPow (-exponent).toNat /
    (tenPow exponent.toNat * twoPow (-x.exponent).toNat), exponent⟩

/-- The multiple of `10 ^ exponent` nearest to the number, the even one of two, if it or its rival
on the other side of the number names the number. -/
def nearestOn? (x : Dyadic) (exponent : Int) : Option Decimal :=
  let lower := x.floorTo exponent
  let upper : Decimal := ⟨lower.digits + 1, exponent⟩
  match x.isNamedBy lower, x.isNamedBy upper with
  | false, false => none
  | true, false => some lower
  | false, true => some upper
  | true, true =>
    let middle : Decimal := ⟨2 * lower.digits + 1, exponent⟩
    match compareDecimal middle (2 * x.significand) x.exponent with
    | .gt => some lower
    | .lt => some upper
    | .eq => some (if lower.digits % 2 = 0 then lower else upper)

def exact (x : Dyadic) : Decimal :=
  ⟨x.significand * twoPow x.exponent.toNat * Nat.pow 5 (-x.exponent).toNat, min x.exponent 0⟩

/-- The decimal of fewest digits that names the number. Seventeen digits always suffice. -/
def shortest (x : Dyadic) : Decimal :=
  let digitCounts := (List.range 17).map fun n : Nat => (n : Int) + 1
  match digitCounts.findSome? fun n => x.nearestOn? (x.scale - n) with
  | some d => d.strip 17
  | none => x.exact

end Dyadic
end ShellLowering
