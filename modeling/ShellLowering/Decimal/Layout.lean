import ShellLowering.Decimal.Shortest

namespace ShellLowering.Decimal

/-- The choices that are made when the digits of a number are laid out. -/
structure Layout where
  /-- Numbers below this power of ten have an exponent. -/
  positionalFrom : Int
  /-- Numbers from this power of ten on have an exponent. -/
  positionalBelow : Int
  /-- Exponents have a sign and at least so many digits. -/
  exponentWidth : Nat
  infinityWord : String
  notANumberWord : String

/-- Numbers from a ten-thousandth on and below `10 ^ 16` are written without an exponent. -/
def Layout.plain : Layout := ⟨-4, 16, 2, "inf", "nan"⟩

namespace Layout

def exponentText (layout : Layout) (exponent : Int) : List Char :=
  (if exponent < 0 then '-' else '+') ::
    (Nat.toDigits 10 exponent.natAbs).leftpad layout.exponentWidth '0'

/-- Lays out digits of which the point follows the first `place`. A number without a fraction that
has no exponent ends in a zero after the point. -/
def magnitude (layout : Layout) (digits : List Char) (place : Int) : List Char :=
  if layout.positionalFrom < place ∧ place ≤ layout.positionalBelow then
    if place ≤ 0 then '0' :: '.' :: List.replicate place.natAbs '0' ++ digits
    else if digits.length ≤ place then
      digits ++ List.replicate (place.toNat - digits.length) '0' ++ ['.', '0']
    else digits.take place.toNat ++ '.' :: digits.drop place.toNat
  else
    let fraction := digits.drop 1
    digits.take 1 ++ (if fraction = [] then [] else '.' :: fraction) ++
      'e' :: layout.exponentText (place - 1)

/-- The text of a floating-point number, in the fewest digits that name it. -/
def float (layout : Layout) (x : Float) : String :=
  let fields := FloatFields.ofFloat x
  let sign := if fields.negative then "-" else ""
  if fields.isZero then sign ++ "0.0"
  else if fields.isFinite then
    let decimal := (Dyadic.ofFields fields).shortest
    sign ++ String.ofList (layout.magnitude (Nat.toDigits 10 decimal.digits) decimal.scale)
  else if fields.fraction = 0 then sign ++ layout.infinityWord
  else layout.notANumberWord

end Layout
end ShellLowering.Decimal
