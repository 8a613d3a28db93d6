import InterfaceSchema.Json.Literal.Reading

/-!
# The grammar of JSON texts

What a JSON text is, apart from any reader.  Scalars have a grammar of their own: words, numbers
and string literals.  An `Outline` is a value as it is spelled, but without the blanks between its
tokens; `Outline.Laid` puts the blanks in, and `IsText` is the whole text.  Spelling is left open:
a literal may be spelled with any of its escapes, and members may stand in any order.

The grammar is one of octets.  Octets beyond ASCII are none of its marks, so it says of a text in
UTF-8 what the grammar of characters says.
-/

namespace InterfaceSchema.Json

open InterfaceSchema.Text (Bytes)

/-- The octet of a character of ASCII. -/
def octet (c : Char) : UInt8 := c.toUInt8

/-- Each octet is that of the character it stands for. -/
theorem octet_glyph (b : UInt8) : octet (glyph b) = b := UInt8.toUInt8_toUInt32 b

/-- A character of ASCII stands for itself. -/
theorem glyph_octet {c : Char} (h : c.toNat < 0x80) : glyph (octet c) = c := by
  apply Char.ext
  apply UInt32.toNat_inj.1
  show c.val.toUInt8.toUInt32.toNat = c.val.toNat
  have hc : c.val.toNat < 256 := Nat.lt_trans h (by decide)
  rw [UInt8.toNat_toUInt32, UInt32.toNat_toUInt8, Nat.mod_eq_of_lt hc]

/-- An octet is known from its character. -/
theorem eq_octet {b : UInt8} {c : Char} (h : glyph b = c) : b = octet c := by
  rw [← h, octet_glyph]

/-- Blanks, or nothing. -/
def Blanks (w : Bytes) : Prop := ∀ b ∈ w, isBlank b = true

theorem Blanks.nil : Blanks [] := fun _ hb => absurd hb List.not_mem_nil

theorem Blanks.append {w w' : Bytes} (hw : Blanks w) (hw' : Blanks w') : Blanks (w ++ w') := by
  intro b hb
  rcases List.mem_append.1 hb with hb | hb
  · exact hw b hb
  · exact hw' b hb

/-! ### Numbers -/

namespace Number

/-- One digit or more. -/
structure Digits (ds : Bytes) : Prop where
  ne_nil : ds ≠ []
  isDigit : ∀ b ∈ ds, isDigit b = true

/-- The digits before a point: no zero comes first but a zero alone. -/
inductive Whole : Bytes → Prop where
  | zero : Whole [octet '0']
  | digits {ds : Bytes} (h : Digits ds) (hzero : ds.head? ≠ some (octet '0')) : Whole ds

/-- A point and digits, or nothing. -/
inductive Fraction : Bytes → Prop where
  | none : Fraction []
  | point {ds : Bytes} (h : Digits ds) : Fraction (octet '.' :: ds)

inductive PowerSign : Bytes → Prop where
  | none  : PowerSign []
  | plus  : PowerSign [octet '+']
  | minus : PowerSign [octet '-']

/-- A power of ten, or nothing. -/
inductive Power : Bytes → Prop where
  | none : Power []
  | some {e : UInt8} {sign ds : Bytes} (he : e = octet 'e' ∨ e = octet 'E') (hsign : PowerSign sign)
      (hds : Digits ds) : Power (e :: (sign ++ ds))

/-- A number without its sign. -/
inductive Unsigned : Bytes → Prop where
  | mk {w f p : Bytes} (hw : Whole w) (hf : Fraction f) (hp : Power p) : Unsigned (w ++ (f ++ p))

end Number

/-! ### String literals -/

namespace Literal

/-- The octet around string literals. -/
def quote : UInt8 := octet '"'

/-- Four hexadecimal digits of either case, and their number. -/
inductive Hex4 : Nat → Bytes → Prop where
  | mk {b₁ b₂ b₃ b₄ : UInt8} {d₁ d₂ d₃ d₄ : Nat} (h₁ : hexDigit? b₁ = some d₁)
      (h₂ : hexDigit? b₂ = some d₂) (h₃ : hexDigit? b₃ = some d₃) (h₄ : hexDigit? b₄ = some d₄) :
      Hex4 (((d₁ * 16 + d₂) * 16 + d₃) * 16 + d₄) [b₁, b₂, b₃, b₄]

/-- An octet that may stand between quotation marks by itself. -/
structure Plain (b : UInt8) : Prop where
  firstPlain_le : firstPlain ≤ b
  ne_quote : b ≠ quote
  ne_escape : b ≠ octet '\\'

/-- What may stand between quotation marks. -/
inductive Body : Bytes → Prop where
  | nil : Body []
  | plain {b : UInt8} {x : Bytes} (hb : Plain b) (h : Body x) : Body (b :: x)
  | letter {b : UInt8} {x : Bytes} {c : Char} (hb : escaped? b = some c) (h : Body x) :
      Body (octet '\\' :: b :: x)
  | unit {n : Nat} {ds x : Bytes} (hn : Hex4 n ds) (h : Body x) :
      Body (octet '\\' :: octet 'u' :: (ds ++ x))

/-- The spellings of a text between quotation marks: its characters as they are, by letters, by
code units, and by pairs of surrogates. -/
inductive Spells : List Char → Bytes → Prop where
  | nil : Spells [] []
  | plain {c : Char} {cs : List Char} {x : Bytes} (hplain : 0x20 ≤ c.toNat) (hquote : c ≠ '"')
      (hescape : c ≠ '\\') (h : Spells cs x) : Spells (c :: cs) (String.utf8EncodeChar c ++ x)
  | letter {b : UInt8} {c : Char} {cs : List Char} {x : Bytes} (hb : escaped? b = some c)
      (h : Spells cs x) : Spells (c :: cs) (octet '\\' :: b :: x)
  | unit {n : Nat} {ds : Bytes} {cs : List Char} {x : Bytes} (hn : Hex4 n ds)
      (hhigh : isHighSurrogate n = false) (hlow : isLowSurrogate n = false) (h : Spells cs x) :
      Spells (.ofNat n :: cs) (octet '\\' :: octet 'u' :: (ds ++ x))
  | pair {high low : Nat} {ds es : Bytes} {cs : List Char} {x : Bytes} (hds : Hex4 high ds)
      (hes : Hex4 low es) (hhigh : isHighSurrogate high = true) (hlow : isLowSurrogate low = true)
      (h : Spells cs x) :
      Spells (.ofNat (0x10000 + (high - 0xd800) * 0x400 + (low - 0xdc00)) :: cs)
        (octet '\\' :: octet 'u' :: (ds ++ octet '\\' :: octet 'u' :: (es ++ x)))

end Literal

/-! ### Values -/

/-- A word, a number or a string literal. -/
inductive IsScalar : Bytes → Prop where
  | null : IsScalar (Text.bytes "null")
  | true : IsScalar (Text.bytes "true")
  | false : IsScalar (Text.bytes "false")
  | number {x : Bytes} (h : Number.Unsigned x) : IsScalar x
  | negative {x : Bytes} (h : Number.Unsigned x) : IsScalar (octet '-' :: x)
  | literal {x : Bytes} (h : Literal.Body x) : IsScalar (Literal.quote :: (x ++ [Literal.quote]))

/-- A scalar as it is spelled. -/
structure Scalar where
  text : Bytes
  isScalar : IsScalar text

/-- A key as it is spelled between its quotation marks. -/
structure Key where
  body : Bytes
  isBody : Literal.Body body

/-- A value as it is spelled, without the blanks between its tokens. -/
inductive Outline where
  | scalar (x : Scalar)
  | list (items : List Outline)
  | object (members : List (Key × Outline))

namespace Outline

mutual

/-- The texts of a value, from its first token to its last. -/
inductive Laid : Outline → Bytes → Prop where
  | scalar (x : Scalar) : Laid (.scalar x) x.text
  | emptyList {w : Bytes} (hw : Blanks w) : Laid (.list []) (octet '[' :: (w ++ [octet ']']))
  | list {o : Outline} {os : List Outline} {x : Bytes} (h : LaidItems o os x) :
      Laid (.list (o :: os)) (octet '[' :: (x ++ [octet ']']))
  | emptyObject {w : Bytes} (hw : Blanks w) :
      Laid (.object []) (octet '\x7b' :: (w ++ [octet '\x7d']))
  | object {m : Key × Outline} {ms : List (Key × Outline)} {x : Bytes} (h : LaidMembers m ms x) :
      Laid (.object (m :: ms)) (octet '\x7b' :: (x ++ [octet '\x7d']))

/-- The texts of a value with blanks around it. -/
inductive Padded : Outline → Bytes → Prop where
  | mk {o : Outline} {w x w' : Bytes} (hw : Blanks w) (h : Laid o x) (hw' : Blanks w') :
      Padded o (w ++ (x ++ w'))

/-- The items of a list, with commas between them. -/
inductive LaidItems : Outline → List Outline → Bytes → Prop where
  | last {o : Outline} {x : Bytes} (h : Padded o x) : LaidItems o [] x
  | more {o o' : Outline} {os : List Outline} {x y : Bytes} (h : Padded o x)
      (hs : LaidItems o' os y) : LaidItems o (o' :: os) (x ++ octet ',' :: y)

/-- The texts of one member: its key, a colon, its value. -/
inductive LaidMember : Key × Outline → Bytes → Prop where
  | mk {k : Key} {o : Outline} {w w' x : Bytes} (hw : Blanks w) (hw' : Blanks w')
      (h : Padded o x) :
      LaidMember (k, o)
        (w ++ Literal.quote :: (k.body ++ Literal.quote :: (w' ++ octet ':' :: x)))

/-- The members of an object, with commas between them. -/
inductive LaidMembers : Key × Outline → List (Key × Outline) → Bytes → Prop where
  | last {m : Key × Outline} {x : Bytes} (h : LaidMember m x) : LaidMembers m [] x
  | more {m m' : Key × Outline} {ms : List (Key × Outline)} {x y : Bytes} (h : LaidMember m x)
      (hs : LaidMembers m' ms y) : LaidMembers m (m' :: ms) (x ++ octet ',' :: y)

end

end Outline

/-- A JSON text: one value with blanks around it, in UTF-8. -/
structure IsText (input : Bytes) : Prop where
  utf8 : ∃ cs, input = Text.Utf8.encode cs
  value : ∃ o : Outline, o.Padded input

end InterfaceSchema.Json
