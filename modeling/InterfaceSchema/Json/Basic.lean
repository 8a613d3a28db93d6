import InterfaceSchema.Entries

/-!
# JSON

JSON values whose objects keep the order of their members.  The numbers of the documents are
integers.
-/

namespace InterfaceSchema

/-- A JSON value. -/
inductive Json where
  | null
  | bool (b : Bool)
  | int (n : Int)
  | str (s : String)
  | arr (items : List Json)
  | obj (members : List (String × Json))
deriving Repr, Inhabited

end InterfaceSchema
