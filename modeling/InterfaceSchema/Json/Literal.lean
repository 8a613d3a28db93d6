/-!
# JSON — string literals, written

A text between quotation marks: quotation marks, backslashes and control characters are escaped,
the common ones by a letter and the others by four small hexadecimal digits; all else stands as
it is.
-/

namespace InterfaceSchema.Json.Literal

/-- Four hexadecimal digits, small letters. -/
def hex4 (n : Nat) : List Char :=
  let digit (d : Nat) : Char := Nat.digitChar (d % 16)
  [digit (n / 4096), digit (n / 256), digit (n / 16), digit n]

/-- One character inside a literal. -/
def char (c : Char) : List Char :=
  match c with
  | '"'    => ['\\', '"']
  | '\\'   => ['\\', '\\']
  | '\x08' => ['\\', 'b']
  | '\x0c' => ['\\', 'f']
  | '\n'   => ['\\', 'n']
  | '\r'   => ['\\', 'r']
  | '\t'   => ['\\', 't']
  | c      => if c.toNat < 0x20 then '\\' :: 'u' :: hex4 c.toNat else [c]

/-- The literal of a text. -/
def chars (s : String) : List Char := '"' :: s.toList.flatMap char ++ ['"']

end InterfaceSchema.Json.Literal
