import InterfaceSchema.Json.Skipping

/-!
# JSON — shapes

A shape says which JSON values are read and what they are read to.  A record has members under
fixed keys in a fixed order; it is written as an object, in any order and with other members
besides, or as the list of its members in order.  `Shape.Val` is the type of what a shape reads,
and `Shape.reader` reads it: the first fault in the order of the text is the one reported.
-/

namespace InterfaceSchema.Json

open InterfaceSchema.Text (Bytes)

/-- When a member may be left out. -/
inductive Presence where
  | required
  /-- It may be left out of an object. -/
  | omissible
  /-- It may also be left out at the end of a list. -/
  | defaulted
deriving DecidableEq, Repr

mutual

inductive Shape where
  | text
  | flag
  | integer
  | nullable (shape : Shape)
  | list (shape : Shape)
  | record (title : String) (members : Members)

/-- The members of a record, in order. -/
inductive Members where
  | empty
  | cons (key : String) (presence : Presence) (shape : Shape) (rest : Members)

end

mutual

/-- What is read at a shape. -/
def Shape.Val : Shape → Type
  | .text        => String
  | .flag        => Bool
  | .integer     => Int64
  | .nullable s  => Option s.Val
  | .list s      => List s.Val
  | .record _ ms => ms.Val

/-- The values of all members. -/
def Members.Val : Members → Type
  | .empty         => Unit
  | .cons _ _ s ms => s.Val × ms.Val

end

/-- The values of the members met so far. -/
def Members.Slots : Members → Type
  | .empty         => Unit
  | .cons _ _ s ms => Option s.Val × ms.Slots

namespace Members

def size : Members → Nat
  | .empty         => 0
  | .cons _ _ _ ms => ms.size + 1

/-- No member met yet. -/
def noSlots : (ms : Members) → ms.Slots
  | .empty         => ()
  | .cons _ _ _ ms => (none, ms.noSlots)

end Members

mutual

/-- What stands for a value left out. -/
def Shape.blank : (s : Shape) → s.Val
  | .text        => ""
  | .flag        => false
  | .integer     => (0 : Int64)
  | .nullable _  => none
  | .list _      => []
  | .record _ ms => ms.blank

def Members.blank : (ms : Members) → ms.Val
  | .empty         => ()
  | .cons _ _ s ms => (s.blank, ms.blank)

end

namespace Members

/-- The values at the end of an object; the first required member that was not met is missing. -/
def ofSlots : (ms : Members) → ms.Slots → Except Cause ms.Val
  | .empty, () => .ok ()
  | .cons key presence s ms, (slot, slots) =>
    match slot, presence with
    | some v, _ => (ms.ofSlots slots).map (v, ·)
    | none, .required => .error (.missing key)
    | none, _ => (ms.ofSlots slots).map (s.blank, ·)

/-- The values of the members from number `i` on at the end of a list that holds none of them. -/
def ofShortList (title : String) (size i : Nat) : (ms : Members) → Except Cause ms.Val
  | .empty => .ok ()
  | .cons _ presence s ms =>
    match presence with
    | .defaulted => (ms.ofShortList title size (i + 1)).map (s.blank, ·)
    | _ => .error (.tooShort i title size)

end Members

namespace Reader
variable {α β : Type}

/-- Reads nothing: there is a fault. -/
def refuse (fault : Bytes → Fault) : Reader α where
  run s := .error (fault s)
  shrinks h := by cases h

/-- Where an object would go on if it were closed next: over its closing bracket, or at what
stands there instead. -/
def closeObject (s : Bytes) : Bytes :=
  match skipBlanks s with
  | [] => []
  | b :: r => if glyph b = '\x7d' then r else b :: r

/-- A second member of one key. -/
def repeated (key : String) : Reader α := refuse fun s => .here (.repeated key) (closeObject s)

/-- A record in either of its two forms. -/
def record (title : String) (named listed : Reader α) : Reader α where
  run s :=
    match Token.read s with
    | .error f => .error f
    | .ok (.object, r) => named.run r
    | .ok (.list, r) => listed.run r
    | .ok (t, r) => .error (t.misfit (.wrongKind t (.record title)) r)
  shrinks h := by
    split at h
    · cases h
    · exact Nat.lt_trans (named.shrinks h) (Token.length_read ‹_›)
    · exact Nat.lt_trans (listed.shrinks h) (Token.length_read ‹_›)
    · cases h

/-- The members of an object whose opening bracket has been read.  `take` reads what follows a
key, and `finish` judges what has come together. -/
def named (take : String → α → Reader α) (start : α) (finish : α → Except Cause β) :
    Reader β where
  run s :=
    match membersFrom take true start s with
    | .error f => .error f
    | .ok (a, r) =>
      match finish a with
      | .ok b => .ok (b, r)
      | .error cause => .error (.here cause r)
  shrinks h := by
    split at h
    · cases h
    · rename_i hm
      split at h
      · cases h
        exact length_membersFrom hm
      · cases h

/-- The end of a list all of whose items are read. -/
def listEnd (a : α) : Reader α where
  run s :=
    match skipBlanks s with
    | [] => .error (.past (.endIn .list) [])
    | b :: r =>
      if glyph b = ']' then .ok (a, r)
      else if glyph b = ',' then
        match skipBlanks r with
        | [] => .error (.past .trailingCharacters [])
        | b :: r =>
          .error (.past (if glyph b = ']' then .trailingComma else .trailingCharacters) (b :: r))
      else .error (.past .trailingCharacters (b :: r))
  shrinks {s r _} h := by
    have hs := length_skipBlanks_le s
    split at h
    · cases h
    · rename_i heq
      rw [heq] at hs
      split at h
      · cases h; exact hs
      · split at h
        · split at h <;> cases h
        · cases h

/-- The items from number `i` on of a list with one kind of value at each place; `short` judges
a list that ends here. -/
def listItem (i : Nat) (item : Reader α) (rest : Reader β) (short : Except Cause (α × β)) :
    Reader (α × β) where
  run s :=
    match nextItem (i = 0) s with
    | .error f => .error f
    | .ok (.done r) =>
      match short with
      | .ok v => .ok (v, r)
      | .error cause => .error (.here cause r)
    | .ok (.more () r) =>
      match item.run r with
      | .error f => .error (f.within (.item i))
      | .ok (a, r) =>
        match rest.run r with
        | .error f => .error f
        | .ok (b, r) => .ok ((a, b), r)
  shrinks h := by
    split at h
    · cases h
    · rename_i hn
      split at h
      · cases h; exact length_nextItem_done hn
      · cases h
    · rename_i hn
      split at h
      · cases h
      · rename_i hi
        split at h
        · cases h
        · rename_i hr
          cases h
          exact Nat.lt_trans (rest.shrinks hr)
            (Nat.lt_of_lt_of_le (item.shrinks hi) (length_nextItem_more hn))

end Reader

mutual

/-- Reads a value of the shape. -/
def Shape.reader : (s : Shape) → Reader s.Val
  | .text => .text
  | .flag => .flag
  | .integer => .integer
  | .nullable s => .nullable s.reader
  | .list s => .list s.reader
  | .record title ms =>
    .record title (.named ms.take ms.noSlots ms.ofSlots) (ms.listed title ms.size 0)

/-- Reads what follows a key: into its slot, or over it where no member has that key. -/
def Members.take : (ms : Members) → String → ms.Slots → Reader ms.Slots
  | .empty, key, () => (Reader.member key .skip).map fun _ => ()
  | .cons k _ s ms, key, (slot, slots) =>
    if key = k then
      match slot with
      | some _ => .repeated k
      | none => (Reader.member k s.reader).map fun v => (some v, slots)
    else (ms.take key slots).map fun slots => (slot, slots)

/-- Reads the members from number `i` on as items of a list, through its closing bracket. -/
def Members.listed (title : String) (size i : Nat) : (ms : Members) → Reader ms.Val
  | .empty => .listEnd ()
  | .cons k p s ms =>
    .listItem i s.reader (ms.listed title size (i + 1))
      ((Members.cons k p s ms).ofShortList title size i)

end

/-- Reads one value of the shape off the front of an input.  What follows it is not looked at. -/
def Shape.read (s : Shape) (input : Bytes) : Except Located s.Val :=
  match s.reader.run input with
  | .ok (v, _) => .ok v
  | .error f => .error (f.locate input)

end InterfaceSchema.Json
