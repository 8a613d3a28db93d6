/-!
# Text — terminal

What a terminal prints of a text.  Control characters print nothing, line breaks and tabs aside,
and neither do the sequences that an escape character introduces: escape sequences, control
sequences, and strings for a device, for the operating system or for an application.
-/

namespace InterfaceSchema.Text.Terminal

/-- What the next character stands in. -/
inductive Mode where
  | plain
  /-- Just after an escape character. -/
  | escape
  /-- An escape sequence of several characters. -/
  | escapeMiddle
  | control
  /-- Just after the start of a string for a device. -/
  | device
  | deviceParameters
  | deviceMiddle
  /-- The content of a string for a device or an application. -/
  | string
  /-- A string for the operating system. -/
  | system
deriving DecidableEq, Repr

/-- Characters in the middle of a sequence. -/
def isIntermediate (c : Char) : Bool := ' ' ≤ c && c ≤ '/'

/-- Characters of the parameters of a sequence. -/
def isParameter (c : Char) : Bool := '0' ≤ c && c ≤ '?'

/-- Parameters that are private to a device, which may only come first. -/
def isPrivate (c : Char) : Bool := '<' ≤ c && c ≤ '?'

/-- Characters that end a sequence. -/
def isFinal (c : Char) : Bool := '@' ≤ c && c ≤ '~'

/-- Control characters that print: they move on to another place. -/
def isBreak (c : Char) : Bool := c == '\t' || c == '\n' || c == '\x0c' || c == '\r'

/-- Characters that print by themselves. -/
def isPlain (c : Char) : Bool := isBreak c || (' ' ≤ c && c ≠ '\x7f')

/-- The octet that ends a string, whatever character it belongs to. -/
def stringEnd : UInt8 := 0x9c

namespace Mode

/-- The mode after a character.  An escape character starts anew from any mode; a cancelling one
goes back to plain text, and so does a break in a sequence. -/
def next (m : Mode) (c : Char) : Mode :=
  if c = '\x1b' then .escape
  else if c = '\x18' ∨ c = '\x1a' then .plain
  else
    match m with
    | .plain => .plain
    | .escape =>
      match c with
      | '[' => .control
      | ']' => .system
      | 'P' => .device
      | 'X' | '^' | '_' => .string
      | _ =>
        if isIntermediate c then .escapeMiddle
        else if isParameter c || isFinal c || isBreak c then .plain
        else .escape
    | .escapeMiddle =>
      if isParameter c || isFinal c || isBreak c then .plain else .escapeMiddle
    | .control => if isFinal c || isBreak c then .plain else .control
    | .device =>
      if isFinal c then .string
      else if isIntermediate c then .deviceMiddle
      else if isParameter c then .deviceParameters
      else .device
    | .deviceParameters =>
      if isFinal c || isPrivate c then .string
      else if isIntermediate c then .deviceMiddle
      else .deviceParameters
    | .deviceMiddle => if isFinal c || isParameter c then .string else .deviceMiddle
    | .string => if stringEnd ∈ String.utf8EncodeChar c then .plain else .string
    | .system => if c = '\x07' then .plain else .system

/-- A character prints in a mode. -/
def prints (m : Mode) (c : Char) : Bool :=
  match m with
  | .plain => isPlain c
  | .escape | .escapeMiddle | .control => isBreak c
  | _ => false

end Mode

/-- What prints of some characters, the first of which stands in the mode. -/
def printedFrom : Mode → List Char → List Char
  | _, []      => []
  | m, c :: cs =>
    if m.prints c then c :: printedFrom (m.next c) cs else printedFrom (m.next c) cs

/-- What prints of a text. -/
def printed (s : String) : String := .ofList (printedFrom .plain s.toList)

end InterfaceSchema.Text.Terminal
