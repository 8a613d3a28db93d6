import InterfaceSchema.Idl.Wire

/-!
# Interface descriptions — input

Reading a schema off a stream of octets, which is taken to its end first.
-/

namespace InterfaceSchema

open InterfaceSchema.Text (Bytes)

/-- What a stream delivers, and the reason why it then breaks off, if it does. -/
structure Stream where
  delivered : Bytes
  failure : Option String := none

/-- Why no schema comes off a stream. -/
inductive InputError where
  /-- The stream broke off. -/
  | unreadable (reason : String)
  /-- What it delivered is not a schema. -/
  | invalid (e : Json.Located)
deriving DecidableEq, Repr

def InputError.message : InputError → String
  | .unreadable reason => "failed to read schema: " ++ reason
  | .invalid e => "invalid schema at JSON path " ++ e.path.text ++ ": " ++ e.detail

/-- The schema in a stream. -/
def Schema.ofStream (s : Stream) : Except InputError Schema :=
  match s.failure with
  | some reason => .error (.unreadable reason)
  | none => (Schema.read s.delivered).mapError .invalid

end InterfaceSchema
