import InterfaceSchema.Decimal.Basic

/-!
# Decimal — shortest

The decimal number that a binary floating-point number is shown as: of those that read back as
it, one on the coarsest grid of powers of ten, and of these the nearest to it.
-/

namespace InterfaceSchema.Decimal

/-- A finite positive number `mantissa · 2 ^ (exponent - 2)` with the bounds between which
decimals read back as it, in the same unit; the bounds themselves do iff `closed`. -/
structure Interval where
  low : Nat
  middle : Nat
  high : Nat
  closed : Bool
  exponent : Int

/-- The interval of a number with the given fraction and biased exponent.  Below a power of two
the neighbours are twice as dense. -/
def Interval.ofBits (fraction biased : Nat) : Interval :=
  let m := if biased = 0 then fraction else fraction + Nat.pow 2 52
  let dense := fraction = 0 ∧ 1 < biased
  { low := 4 * m - if dense then 1 else 2
    middle := 4 * m
    high := 4 * m + 2
    closed := m % 2 = 0
    exponent := (max biased 1 : Nat) - 1077 }

/-- The point `c · 10 ^ k`, compared with a bound of the interval: both sides as whole numbers. -/
private def scaled (e k : Int) (c bound : Nat) : Nat × Nat :=
  (c * Nat.pow 10 k.toNat * Nat.pow 2 (-e).toNat,
    bound * Nat.pow 10 (-k).toNat * Nat.pow 2 e.toNat)

def Interval.holds (i : Interval) (k : Int) (c : Nat) : Bool :=
  let (l, l') := scaled i.exponent k c i.low
  let (h, h') := scaled i.exponent k c i.high
  if i.closed then l' ≤ l && h ≤ h' else l' < l && h < h'

/-- The point of the grid `10 ^ k` to show: the nearer one of the two around the middle, if it
lies inside; a tie goes to the even one. -/
def Interval.onGrid (i : Interval) (k : Int) : Option Nat :=
  let (unit, middle) := scaled i.exponent k 1 i.middle
  let below := middle / unit
  let rest := middle - below * unit
  let near := if 2 * rest < unit ∨ (2 * rest = unit ∧ below % 2 = 0) then below else below + 1
  let far := if near = below then below + 1 else below
  [near, far].find? (i.holds k)

/-- The shortest decimal for a finite number. -/
def shortest (x : Float) : Decimal :=
  let bits := x.toBits.toNat
  let biased := bits / Nat.pow 2 52 % Nat.pow 2 11
  let fraction := bits % Nat.pow 2 52
  let negative := Nat.pow 2 63 ≤ bits
  if biased = 0 ∧ fraction = 0 then ⟨negative, 0, 0⟩
  else
    let i := Interval.ofBits fraction biased
    let found := (List.range 640).findSome? fun (n : Nat) =>
      let k := 309 - (n : Int)
      (i.onGrid k).map fun c => ⟨negative, c, k⟩
    found.getD ⟨negative, 0, 0⟩

end InterfaceSchema.Decimal
