/-!
# Text — similarity

How alike two texts are: the share of characters of each text that also stand in the other not
far from the same place, and the share of these that stand there in the same order.
-/

namespace InterfaceSchema.Text

/-- Takes the first free place of a character among those from `low` to `high`, the places being
counted from `j`. -/
def claim (c : Char) (low high j : Nat) : List (Char × Bool) → Option (List (Char × Bool))
  | [] => none
  | (d, taken) :: ds =>
    if low ≤ j ∧ j ≤ high ∧ taken = false ∧ d = c then some ((d, true) :: ds)
    else (claim c low high (j + 1) ds).map ((d, taken) :: ·)

/-- The characters from place `i` on that find a free place within reach, in order, and the
places then. -/
def claims (reach i : Nat) : List Char → List (Char × Bool) → List Char × List (Char × Bool)
  | [], places => ([], places)
  | c :: cs, places =>
    match claim c (i - reach) (i + reach) 0 places with
    | none => claims reach (i + 1) cs places
    | some places =>
      let (found, places) := claims reach (i + 1) cs places
      (c :: found, places)

/-- A degree of likeness: a fraction, none below zero and one for equal texts. -/
structure Likeness where
  numerator : Nat
  denominator : Nat

/-- The first degree is lower than the second. -/
def Likeness.lt (x y : Likeness) : Bool := x.numerator * y.denominator < y.numerator * x.denominator

/-- How alike two texts are: the mean of the shares of characters found in either text and of
those found in order. -/
def likeness (a b : List Char) : Likeness :=
  let reach := max a.length b.length / 2 - 1
  let (found, places) := claims reach 0 a (b.map (·, false))
  let there := (places.filter (·.2)).map (·.1)
  let m := found.length
  if m = 0 then ⟨0, 1⟩
  else
    let swapped := ((found.zip there).filter fun p => p.1 ≠ p.2).length / 2
    let (la, lb) := (a.length, b.length)
    ⟨m * lb * m + m * la * m + (m - swapped) * la * lb, 3 * la * lb * m⟩

end InterfaceSchema.Text
