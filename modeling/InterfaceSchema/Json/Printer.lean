import InterfaceSchema.Json.Basic
import InterfaceSchema.Json.Literal

/-!
# JSON — printer

Two ways to write a value: on one line without any blanks, and over lines with four blanks for
each level, where an empty list or object stays closed up.
-/

namespace InterfaceSchema.Json

/-- The digits of a whole number, after a minus sign where it is negative. -/
def integerText (n : Int) : List Char :=
  if n < 0 then '-' :: Nat.toDigits 10 n.natAbs else Nat.toDigits 10 n.natAbs

mutual

/-- The value on one line. -/
def compactChars : Json → List Char
  | .null      => "null".toList
  | .bool b    => (if b then "true" else "false").toList
  | .int n     => integerText n
  | .str s     => Literal.chars s
  | .arr items => '[' :: compactItems items ++ [']']
  | .obj ms    => '\x7b' :: compactMembers ms ++ ['\x7d']

/-- Items, with commas between them. -/
def compactItems : List Json → List Char
  | []      => []
  | [v]     => compactChars v
  | v :: vs => compactChars v ++ ',' :: compactItems vs

/-- Members, with commas between them. -/
def compactMembers : List (String × Json) → List Char
  | []      => []
  | [m]     => compactMember m
  | m :: ms => compactMember m ++ ',' :: compactMembers ms

/-- One member: its key, a colon, its value. -/
def compactMember : String × Json → List Char
  | (k, v) => Literal.chars k ++ ':' :: compactChars v

end

/-- The start of a line at a level. -/
def newLine (level : Nat) : List Char := '\n' :: List.replicate (4 * level) ' '

mutual

/-- The value over lines, its first line already begun at `level`. -/
def prettyChars (level : Nat) : Json → List Char
  | .null     => "null".toList
  | .bool b   => (if b then "true" else "false").toList
  | .int n    => integerText n
  | .str s    => Literal.chars s
  | .arr []   => ['[', ']']
  | .obj []   => ['\x7b', '\x7d']
  | .arr (v :: vs) => '[' :: prettyItems (level + 1) (v :: vs) ++ newLine level ++ [']']
  | .obj (m :: ms) => '\x7b' :: prettyMembers (level + 1) (m :: ms) ++ newLine level ++ ['\x7d']

/-- Items, each on lines of its own, with commas between them. -/
def prettyItems (level : Nat) : List Json → List Char
  | []      => []
  | [v]     => newLine level ++ prettyChars level v
  | v :: vs => newLine level ++ prettyChars level v ++ ',' :: prettyItems level vs

/-- Members, each on lines of its own, with commas between them. -/
def prettyMembers (level : Nat) : List (String × Json) → List Char
  | []      => []
  | [m]     => newLine level ++ prettyMember level m
  | m :: ms => newLine level ++ prettyMember level m ++ ',' :: prettyMembers level ms

/-- One member: its key, a colon and a blank, its value. -/
def prettyMember (level : Nat) : String × Json → List Char
  | (k, v) => Literal.chars k ++ ':' :: ' ' :: prettyChars level v

end

/-- The value on one line. -/
def compact (v : Json) : String := .ofList v.compactChars

/-- The value as a file: over lines, with a line end after it. -/
def render (v : Json) : String := .ofList (v.prettyChars 0 ++ ['\n'])

end InterfaceSchema.Json
