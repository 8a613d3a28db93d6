import InterfaceSchema.Text.Utf8

/-!
# JSON — octets

The octets that JSON gives a meaning, seen as the characters they stand for; octets of longer
spellings equal none of these.
-/

namespace InterfaceSchema.Json

open InterfaceSchema.Text (Bytes)

/-- The character an octet stands for by itself. -/
def glyph (b : UInt8) : Char := Char.ofUInt8 b

def isBlank (b : UInt8) : Bool :=
  match glyph b with
  | ' ' | '\n' | '\t' | '\r' => true
  | _ => false

def isDigit (b : UInt8) : Bool := (glyph b).isDigit

/-- The value of a hexadecimal digit of either case. -/
def hexDigit? (b : UInt8) : Option Nat :=
  let c := glyph b
  if c.isDigit then some (c.toNat - '0'.toNat)
  else if 'a' ≤ c ∧ c ≤ 'f' then some (c.toNat - 'a'.toNat + 10)
  else if 'A' ≤ c ∧ c ≤ 'F' then some (c.toNat - 'A'.toNat + 10)
  else none

/-- What follows the blanks in front. -/
def skipBlanks (s : Bytes) : Bytes := s.dropWhile isBlank

/-- What follows blanks is no longer than all of it. -/
theorem length_skipBlanks_le (s : Bytes) : (skipBlanks s).length ≤ s.length :=
  (List.dropWhile_suffix isBlank).length_le

/-- The digits in front, as numbers, and what follows them. -/
def digits (s : Bytes) : List Nat × Bytes :=
  ((s.takeWhile isDigit).map fun b => (glyph b).toNat - '0'.toNat, s.dropWhile isDigit)

/-- What follows digits is no longer than all of it. -/
theorem length_digits_le (s : Bytes) : (digits s).2.length ≤ s.length :=
  (List.dropWhile_suffix isDigit).length_le

end InterfaceSchema.Json
