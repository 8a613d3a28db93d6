/-!
# Text — UTF-8

Octets and the characters they spell.  `encode` spells characters; `decode` reads octets back,
taking at each place the one character whose spelling starts there, and says how many octets are
left where none does.
-/

namespace InterfaceSchema.Text

/-- Octets, as they come off a stream. -/
abbrev Bytes := List UInt8

namespace Utf8

/-- The octets that spell a list of characters. -/
def encode (cs : List Char) : Bytes := cs.flatMap String.utf8EncodeChar

/-- The code point that the octets in front would spell, read off the data bits without any
check. -/
def codePoint (bs : Bytes) : Nat :=
  let b := (bs.getD 0 0).toNat
  let more (i : Nat) : Nat := (bs.getD i 0).toNat % 64
  if b < 0x80 then b
  else if b < 0xe0 then b % 32 * 64 + more 1
  else if b < 0xf0 then (b % 16 * 64 + more 1) * 64 + more 2
  else ((b % 8 * 64 + more 1) * 64 + more 2) * 64 + more 3

/-- The character spelled in front, with the octets after it.  The check that its spelling is
what stands there refuses overlong forms, surrogates, stray and missing octets at once. -/
def first? (bs : Bytes) : Option (Char × Bytes) :=
  let c := Char.ofNat (codePoint bs)
  let n := c.utf8Size
  if bs.take n = String.utf8EncodeChar c then some (c, bs.drop n) else none

/-- A character is taken as it is spelled. -/
theorem eq_encodeChar_append {bs r : Bytes} {c : Char} (h : first? bs = some (c, r)) :
    bs = String.utf8EncodeChar c ++ r := by
  simp only [first?] at h
  split at h
  case isTrue ht => cases h; rw [← ht, List.take_append_drop]
  case isFalse => cases h

/-- Each character takes at least one octet. -/
theorem length_of_first? {bs r : Bytes} {c : Char} (h : first? bs = some (c, r)) :
    r.length < bs.length := by
  rw [eq_encodeChar_append h, List.length_append, String.length_utf8EncodeChar]
  have := c.utf8Size_pos
  omega

/-- Decodes on from the characters read so far (last first). -/
def decodeFrom (read : List Char) (bs : Bytes) : Except Nat (List Char) :=
  match bs with
  | [] => .ok read.reverse
  | b :: rest =>
    match _h : first? (b :: rest) with
    | some (c, r) => decodeFrom (c :: read) r
    | none => .error (b :: rest).length
termination_by bs.length
decreasing_by exact length_of_first? ‹_›

/-- The characters that the octets spell, or how many octets are left at the first place where
no character is spelled. -/
def decode (bs : Bytes) : Except Nat (List Char) := decodeFrom [] bs

end Utf8

/-- The octets of a text. -/
def bytes (s : String) : Bytes := Utf8.encode s.toList

end InterfaceSchema.Text
