import InterfaceSchema.Decimal.Shortest
import InterfaceSchema.Json.Fault
import InterfaceSchema.Json.Octet

/-!
# JSON — numbers

Reading the number in front.  Whole numbers of 64 bits are kept exactly.  All others are binary
floating-point numbers: the digits that fit 64 bits make a significand, which is then multiplied
or divided by a power of ten; digits that no longer fit count only by their place.
-/

namespace InterfaceSchema.Json

open InterfaceSchema.Text (Bytes)

namespace Number

/-- The largest significand. -/
def maxSignificand : Nat := Nat.pow 2 64 - 1

/-- The largest power of ten written after an `e`. -/
def maxPower : Nat := Nat.pow 2 31 - 1

/-- Appends digits to a number as long as it stays within the limit; also the digits that are
left. -/
def fit (limit n : Nat) : List Nat → Nat × List Nat
  | []      => (n, [])
  | d :: ds => if n * 10 + d ≤ limit then fit limit (n * 10 + d) ds else (n, d :: ds)

/-- A number `± significand · 10 ^ power` as it is being read. -/
structure Parts where
  negative : Bool
  significand : Nat
  power : Int

/-- Powers of ten up to this one are floating-point numbers. -/
def maxScale : Nat := 308

/-- `x · 10 ^ power`; none when it is too large. -/
def scale (x : Float) (power : Int) : Option Float :=
  if power.natAbs ≤ maxScale then
    let y := Float.ofScientific 1 false power.natAbs
    if power < 0 then some (x / y)
    else if (x * y).isInf then none
    else some (x * y)
  else if x == 0 then some x
  else if 0 ≤ power then none
  else scale (x / Float.ofScientific 1 false maxScale) (power + maxScale)
termination_by power.natAbs
decreasing_by simp only [maxScale] at *; omega

/-- The floating-point number of the parts, or a fault at the end of its text. -/
def Parts.toDecimal (p : Parts) (rest : Bytes) : Outcome Token :=
  match scale p.significand.toUInt64.toFloat p.power with
  | some x => .ok (.decimal (.shortest (if p.negative then -x else x)), rest)
  | none   => .error (.here .numberOutOfRange rest)

/-- The sign of a power of ten, if any is written: whether it is a minus, and what follows. -/
def powerSign (s : Bytes) : Bool × Bytes :=
  match s with
  | [] => (false, [])
  | b :: r =>
    match glyph b with
    | '+' => (false, r)
    | '-' => (true, r)
    | _   => (false, b :: r)

/-- Reads on after an `e`.  A power too large to be held leaves a zero a zero, shrinks any
number to zero, and is out of range otherwise. -/
def Parts.readPower (p : Parts) (s : Bytes) : Outcome Token :=
  let (down, s) := powerSign s
  match s with
  | [] => .error (.here .endInValue [])
  | b :: r =>
    if isDigit b then
      let (ds, rest) := digits (b :: r)
      match fit maxPower 0 ds with
      | (n, []) => { p with power := p.power + if down then -(n : Int) else n }.toDecimal rest
      | (_, _ :: more) =>
        if p.significand = 0 ∨ down then .ok (.decimal ⟨p.negative, 0, 0⟩, rest)
        else .error ⟨[], .numberOutOfRange, more.length + rest.length⟩
    else .error (.here .invalidNumber r)

/-- Reads on after the digits of a fraction or a long whole number. -/
def Parts.readEnd (p : Parts) (s : Bytes) : Outcome Token :=
  match s with
  | [] => p.toDecimal []
  | b :: r =>
    match glyph b with
    | 'e' | 'E' => p.readPower r
    | _ => p.toDecimal (b :: r)

/-- Reads on after a point. -/
def Parts.readFraction (p : Parts) (s : Bytes) : Outcome Token :=
  match digits s with
  | ([], [])    => .error (.here .endInValue [])
  | ([], rest)  => .error (.past .invalidNumber rest)
  | (ds, rest) =>
    let (n, more) := fit maxSignificand p.significand ds
    { p with significand := n, power := p.power - (ds.length - more.length : Nat) }.readEnd rest

/-- A whole number that fits: an integer if it has 64 bits with its sign, and not a negative
zero. -/
def Parts.toInteger (p : Parts) (rest : Bytes) : Outcome Token :=
  if p.negative then
    if p.significand = 0 ∨ Nat.pow 2 63 < p.significand then p.toDecimal rest
    else .ok (.integer (-p.significand), rest)
  else .ok (.integer p.significand, rest)

/-- Reads on after the digits before a point. -/
def Parts.readOn (p : Parts) (s : Bytes) (whole : Bytes → Outcome Token) : Outcome Token :=
  match s with
  | [] => whole []
  | b :: r =>
    match glyph b with
    | '.'       => p.readFraction r
    | 'e' | 'E' => p.readPower r
    | _         => whole (b :: r)

/-- Reads the number whose digits are in front, a minus sign before them being read already. -/
def read (negative : Bool) (s : Bytes) : Outcome Token :=
  match s with
  | [] => .error (.here .endInValue [])
  | b :: r =>
    if glyph b = '0' then
      match r with
      | b' :: r' =>
        if isDigit b' then .error (.past .invalidNumber r)
        else Parts.readOn ⟨negative, 0, 0⟩ (b' :: r') (Parts.toInteger ⟨negative, 0, 0⟩)
      | [] => Parts.toInteger ⟨negative, 0, 0⟩ []
    else if isDigit b then
      let (ds, rest) := digits (b :: r)
      let (n, more) := fit maxSignificand 0 ds
      let p : Parts := ⟨negative, n, more.length⟩
      p.readOn rest (if more.isEmpty then p.toInteger else p.toDecimal)
    else .error (.here .invalidNumber r)

/-! Every number takes at least one octet. -/

/-- The judgement on a number takes nothing more. -/
theorem Parts.rest_of_toDecimal {p : Parts} {s r : Bytes} {t : Token}
    (h : p.toDecimal s = .ok (t, r)) : r = s := by
  simp only [toDecimal] at h
  split at h <;> simp_all

theorem Parts.rest_of_toInteger {p : Parts} {s r : Bytes} {t : Token}
    (h : p.toInteger s = .ok (t, r)) : r = s := by
  simp only [toInteger] at h
  split at h
  · split at h
    · exact rest_of_toDecimal h
    · simp_all
  · simp_all

theorem length_powerSign_le (s : Bytes) : (powerSign s).2.length ≤ s.length := by
  unfold powerSign
  split
  · simp
  · split <;> simp

theorem Parts.length_readPower {p : Parts} {s r : Bytes} {t : Token}
    (h : p.readPower s = .ok (t, r)) : r.length ≤ s.length := by
  have hs := length_powerSign_le s
  simp only [readPower] at h
  split at h
  · simp at h
  · rename_i b r' heq
    have hd := length_digits_le (b :: r')
    rw [← heq] at hd
    split at h
    · split at h
      · have := rest_of_toDecimal h
        rw [heq] at hd hs
        subst this
        omega
      · split at h
        · simp only [Except.ok.injEq, Prod.mk.injEq] at h
          rw [heq] at hd hs
          rw [← h.2]
          omega
        · simp at h
    · simp at h

theorem Parts.length_readEnd {p : Parts} {s r : Bytes} {t : Token}
    (h : p.readEnd s = .ok (t, r)) : r.length ≤ s.length := by
  unfold readEnd at h
  split at h
  · simp [rest_of_toDecimal h]
  · split at h
    · exact Nat.le_succ_of_le (length_readPower h)
    · exact Nat.le_succ_of_le (length_readPower h)
    · simp [rest_of_toDecimal h]

theorem Parts.length_readFraction {p : Parts} {s r : Bytes} {t : Token}
    (h : p.readFraction s = .ok (t, r)) : r.length ≤ s.length := by
  have hd := length_digits_le s
  unfold readFraction at h
  split at h
  · simp at h
  · simp at h
  · rename_i ds rest _ _ heq
    rw [heq] at hd
    exact Nat.le_trans (length_readEnd h) hd

/-- What may follow the whole part of a number takes nothing back, however a number without it is
judged. -/
theorem Parts.length_readOn {p : Parts} {s r : Bytes} {t : Token} {whole : Bytes → Outcome Token}
    (hw : ∀ {s}, whole s = .ok (t, r) → r = s)
    (h : p.readOn s whole = .ok (t, r)) : r.length ≤ s.length := by
  unfold readOn at h
  split at h
  · simp [hw h]
  · split at h
    · exact Nat.le_succ_of_le (length_readFraction h)
    · exact Nat.le_succ_of_le (length_readPower h)
    · exact Nat.le_succ_of_le (length_readPower h)
    · simp [hw h]

/-- A number takes at least its first digit. -/
theorem length_read {negative : Bool} {s r : Bytes} {t : Token}
    (h : read negative s = .ok (t, r)) : r.length < s.length := by
  unfold read at h
  split at h
  · simp at h
  · rename_i b s
    split at h
    · split at h
      · split at h
        · simp at h
        · exact Nat.lt_succ_of_le (Parts.length_readOn (fun h => Parts.rest_of_toInteger h) h)
      · simp [Parts.rest_of_toInteger h]
    · split at h
      · rename_i hb
        have hlt : (digits (b :: s)).2.length < (b :: s).length := by
          simp only [digits, List.dropWhile_cons, hb, if_true]
          exact Nat.lt_succ_of_le (List.dropWhile_suffix isDigit).length_le
        refine Nat.lt_of_le_of_lt (Parts.length_readOn ?_ h) hlt
        intro s' hs'
        split at hs'
        · exact Parts.rest_of_toInteger hs'
        · exact Parts.rest_of_toDecimal hs'
      · simp at h

end Number

end InterfaceSchema.Json
