import InterfaceSchema.Decimal.Basic
import InterfaceSchema.Text.Quoted
import InterfaceSchema.Text.Utf8

/-!
# JSON — faults

What can go wrong while JSON is read, and where: the path of the value being read, the cause,
and the place in the input.  While reading goes on, a place is the number of octets that are
left from there; `Fault.locate` turns it into a line and a column once the whole input is at
hand.
-/

namespace InterfaceSchema.Json

/-- One step from a value into a part of it. -/
inductive Step where
  | key (name : String)
  | item (index : Nat)
  /-- A member whose key could not be read. -/
  | unread
deriving DecidableEq, Repr

/-- The way from the top value to a value inside it. -/
abbrev Path := List Step

/-- Steps to be written after a first one: points before keys only. -/
def Path.continued : Path → String
  | []               => ""
  | .key name :: ps  => "." ++ name ++ continued ps
  | .item index :: ps => "[" ++ toString index ++ "]" ++ continued ps
  | .unread :: ps    => ".?" ++ continued ps

/-- The path as messages show it; the top value is a point. -/
def Path.text : Path → String
  | []               => "."
  | .key name :: ps  => name ++ continued ps
  | .item index :: ps => "[" ++ toString index ++ "]" ++ continued ps
  | .unread :: ps    => "?" ++ continued ps

/-- What stands first at a value: a whole scalar, or the bracket that opens a list or an object. -/
inductive Token where
  | null
  | boolean (b : Bool)
  | integer (n : Int)
  | decimal (d : Decimal)
  | text (s : String)
  | list
  | object
deriving DecidableEq, Repr

/-- The token as messages name it. -/
def Token.described : Token → String
  | .null      => "null"
  | .boolean b => "boolean `" ++ (if b then "true" else "false") ++ "`"
  | .integer n => "integer `" ++ toString n ++ "`"
  | .decimal d => "floating point `" ++ d.text ++ "`"
  | .text s    => "string " ++ Text.quoted s
  | .list      => "sequence"
  | .object    => "map"

/-- What a reader asks for at a value. -/
inductive Wanted where
  | text
  | flag
  | integer
  | list
  | record (title : String)
deriving DecidableEq, Repr

def Wanted.described : Wanted → String
  | .text         => "a string"
  | .flag         => "a boolean"
  | .integer      => "i64"
  | .list         => "a sequence"
  | .record title => "struct " ++ title

/-- A kind of bracketed value. -/
inductive Bracket where
  | list
  | object
deriving DecidableEq, Repr

/-- Why reading stops. -/
inductive Cause where
  | endInValue
  | endInText
  | endIn (b : Bracket)
  | valueExpected
  | literalExpected
  | colonExpected
  | endExpected (b : Bracket)
  | keyNotText
  | trailingComma
  | trailingCharacters
  | invalidNumber
  | numberOutOfRange
  | invalidEscape
  | loneSurrogate
  | unfinishedSurrogates
  | invalidEncoding
  | controlCharacter
  /-- More brackets are open at once than may be. -/
  | tooDeep
  | wrongKind (found : Token) (wanted : Wanted)
  /-- A whole number beyond what the wanted integer can hold. -/
  | tooLarge (n : Int) (wanted : Wanted)
  | missing (key : String)
  | repeated (key : String)
  /-- A record written as a list that ends before its required items. -/
  | tooShort (length : Nat) (title : String) (size : Nat)
deriving DecidableEq, Repr

def Cause.message : Cause → String
  | .endInValue         => "EOF while parsing a value"
  | .endInText          => "EOF while parsing a string"
  | .endIn .list        => "EOF while parsing a list"
  | .endIn .object      => "EOF while parsing an object"
  | .valueExpected      => "expected value"
  | .literalExpected    => "expected ident"
  | .colonExpected      => "expected `:`"
  | .endExpected .list  => "expected `,` or `]`"
  | .endExpected .object => "expected `,` or `\x7d`"
  | .keyNotText         => "key must be a string"
  | .trailingComma      => "trailing comma"
  | .trailingCharacters => "trailing characters"
  | .invalidNumber      => "invalid number"
  | .numberOutOfRange   => "number out of range"
  | .invalidEscape      => "invalid escape"
  | .loneSurrogate      => "lone leading surrogate in hex escape"
  | .unfinishedSurrogates => "unexpected end of hex escape"
  | .invalidEncoding    => "invalid unicode code point"
  | .controlCharacter   => "control character (\\u0000-\\u001F) found while parsing a string"
  | .tooDeep            => "recursion limit exceeded"
  | .wrongKind found wanted =>
    "invalid type: " ++ found.described ++ ", expected " ++ wanted.described
  | .tooLarge n wanted  =>
    "invalid value: integer `" ++ toString n ++ "`, expected " ++ wanted.described
  | .missing key        => "missing field `" ++ key ++ "`"
  | .repeated key       => "duplicate field `" ++ key ++ "`"
  | .tooShort length title size =>
    "invalid length " ++ toString length ++ ", expected struct " ++ title ++ " with " ++
      toString size ++ (if size = 1 then " element" else " elements")

/-- Kinds of causes: the text is not JSON, it is JSON of the wrong form, it ends too early. -/
inductive Category where
  | malformed
  | mismatched
  | unfinished
deriving DecidableEq, Repr

def Cause.category : Cause → Category
  | .endInValue | .endInText | .endIn _ => .unfinished
  | .wrongKind .. | .tooLarge .. | .missing _ | .repeated _ | .tooShort .. => .mismatched
  | _ => .malformed

/-- A cause at a place: `left` octets are unread from there. -/
structure Fault where
  path : Path
  cause : Cause
  left : Nat
deriving DecidableEq, Repr

/-- A fault at the start of `rest`. -/
def Fault.here (cause : Cause) (rest : Text.Bytes) : Fault := ⟨[], cause, rest.length⟩

/-- A fault that counts the next octet in, if there is one. -/
def Fault.past (cause : Cause) (rest : Text.Bytes) : Fault := ⟨[], cause, rest.length - 1⟩

/-- The fault seen from the value that `step` leads into from. -/
def Fault.within (step : Step) (f : Fault) : Fault := { f with path := step :: f.path }

/-- A fault with its line, from one, and the octets of that line before it. -/
structure Located where
  path : Path
  cause : Cause
  line : Nat
  column : Nat
deriving DecidableEq, Repr

/-- The octet that ends lines. -/
def lineEnd : UInt8 := 10

def Fault.locate (input : Text.Bytes) (f : Fault) : Located :=
  let before := input.take (input.length - f.left)
  { path := f.path
    cause := f.cause
    line := before.count lineEnd + 1
    column := (before.reverse.takeWhile (· ≠ lineEnd)).length }

/-- The cause and the place. -/
def Located.detail (e : Located) : String :=
  e.cause.message ++ " at line " ++ toString e.line ++ " column " ++ toString e.column

/-- The result of reading from the front of some octets: a value and the octets after it. -/
abbrev Outcome (α : Type) := Except Fault (α × Text.Bytes)

end InterfaceSchema.Json
