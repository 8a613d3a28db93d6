import InterfaceSchema.Json.Basic
import InterfaceSchema.Json.Reader

/-!
# JSON — parser

Reading any JSON value whole, with the members of its objects in the order in which they stand.
A key that stands twice keeps its first place and its last value.  No more than `maxLevels`
brackets may be open at once: the one that would be the next is refused where it stands, whatever
follows it.  Records of known shape have no such limit, since they nest five deep at most, and
neither have the values that are passed over.
-/

namespace InterfaceSchema.Json

open InterfaceSchema.Text (Bytes)

namespace Reader

/-- A member whose value is read by `part`, put among those before it. -/
def entry (part : Reader Json) (key : String) (ms : Entries Json) : Reader (Entries Json) :=
  (member key part).map fun v => Entries.insert key v ms

/-- A value whose parts, if it has any, are read by `part`.  Without `part` no bracket is taken. -/
def valueOf (part : Option (Reader Json)) : Reader Json where
  run s :=
    match Token.read s with
    | .error f => .error f
    | .ok (.null, r) => .ok (.null, r)
    | .ok (.boolean b, r) => .ok (.bool b, r)
    | .ok (.integer n, r) => .ok (.int n, r)
    | .ok (.text t, r) => .ok (.str t, r)
    | .ok (.decimal d, r) => .error (.here (.wrongKind (.decimal d) .integer) r)
    | .ok (.list, r) =>
      match part with
      | none => .error (.here .tooDeep r)
      | some part =>
        match itemsFrom part [] 0 r with
        | .error f => .error f
        | .ok (vs, r) => .ok (.arr vs, r)
    | .ok (.object, r) =>
      match part with
      | none => .error (.here .tooDeep r)
      | some part =>
        match membersFrom (entry part) true [] r with
        | .error f => .error f
        | .ok (ms, r) => .ok (.obj ms, r)
  shrinks h := by
    split at h
    · cases h
    · cases h; exact Token.length_read ‹_›
    · cases h; exact Token.length_read ‹_›
    · cases h; exact Token.length_read ‹_›
    · cases h; exact Token.length_read ‹_›
    · cases h
    · split at h
      · cases h
      · split at h
        · cases h
        · cases h
          exact Nat.lt_trans (length_itemsFrom ‹_›) (Token.length_read ‹_›)
    · split at h
      · cases h
      · split at h
        · cases h
        · cases h
          exact Nat.lt_trans (length_membersFrom ‹_›) (Token.length_read ‹_›)

/-- Any value in which no more than `levels` brackets are open at once. -/
def value : (levels : Nat) → Reader Json
  | 0          => valueOf none
  | levels + 1 => valueOf (some (value levels))

end Reader

/-- How many brackets may be open at once. -/
def maxLevels : Nat := 127

/-- The value that a whole input spells, blanks around it aside. -/
def parse (input : Bytes) : Except Located Json :=
  match (Reader.value maxLevels).run input with
  | .error f => .error (f.locate input)
  | .ok (v, r) =>
    match skipBlanks r with
    | [] => .ok v
    | rest => .error ((Fault.past .trailingCharacters rest).locate input)

end InterfaceSchema.Json
