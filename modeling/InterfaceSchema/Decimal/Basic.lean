/-!
# Decimal

Decimal numbers as a sign, a coefficient and a power of ten, and the text that messages show for
them.
-/

namespace InterfaceSchema

/-- The number `± coefficient · 10 ^ exponent`; zero keeps its sign. -/
structure Decimal where
  negative : Bool
  coefficient : Nat
  exponent : Int
deriving DecidableEq, Repr

namespace Decimal

/-- The digits of the coefficient, from the highest. -/
def digits (d : Decimal) : List Char := Nat.toDigits 10 d.coefficient

/-- The power of ten at which the highest digit stands. -/
def magnitude (d : Decimal) : Int := d.exponent + d.digits.length - 1

private def zeros (n : Int) : List Char := List.replicate n.toNat '0'

/-- The text without a power of ten; a point always stands in it. -/
def positional (d : Decimal) : List Char :=
  let whole := d.magnitude + 1
  if 0 ≤ d.exponent then d.digits ++ zeros d.exponent ++ ['.', '0']
  else if 0 < whole then d.digits.take whole.toNat ++ '.' :: d.digits.drop whole.toNat
  else ['0', '.'] ++ zeros (-whole) ++ d.digits

/-- The text with one digit before the point and a signed power of ten; no point where one digit
is all. -/
def scientific (d : Decimal) : List Char :=
  let point := if d.digits.length = 1 then [] else ['.']
  let sign := if d.magnitude < 0 then '-' else '+'
  d.digits.take 1 ++ point ++ d.digits.drop 1 ++ 'e' :: sign :: Nat.toDigits 10 d.magnitude.natAbs

/-- Numbers from `0.00001` to below `10 ^ 16` are written out, all others with a power of ten. -/
def text (d : Decimal) : String :=
  let body :=
    if d.coefficient = 0 then ['0', '.', '0']
    else if -5 ≤ d.magnitude ∧ d.magnitude ≤ 15 then d.positional
    else d.scientific
  .ofList (if d.negative then '-' :: body else body)

end Decimal

end InterfaceSchema
