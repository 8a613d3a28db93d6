import InterfaceSchema.Text.Hidden

/-!
# Text — quoted

A text between quotation marks, as messages show it: the marks inside it and backslashes are
escaped, and every hidden character is shown by an escape, so that what is printed is what is
there.
-/

namespace InterfaceSchema.Text

/-- One character inside quotation marks. -/
def quotedChar (c : Char) : List Char :=
  match c with
  | '\x00' => ['\\', '0']
  | '\t' => ['\\', 't']
  | '\n' => ['\\', 'n']
  | '\r' => ['\\', 'r']
  | '"' => ['\\', '"']
  | '\\' => ['\\', '\\']
  | c =>
    if isHidden c then "\\u\x7b".toList ++ Nat.toDigits 16 c.toNat ++ ['\x7d'] else [c]

/-- A text between quotation marks. -/
def quoted (s : String) : String := .ofList ('"' :: s.toList.flatMap quotedChar ++ ['"'])

/-- Texts between quotation marks, in brackets. -/
def quotedList (ss : List String) : String := "[" ++ ", ".intercalate (ss.map quoted) ++ "]"

end InterfaceSchema.Text
