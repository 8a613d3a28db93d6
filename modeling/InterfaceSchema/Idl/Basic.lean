import InterfaceSchema.Idl.BaseType
import InterfaceSchema.Text.NonEmpty

/-!
# Interface descriptions

A schema declares types.  Each has a name, the name of its supertype, perhaps a comment, and a
form: what it adds to its supertype.  Types refer to each other and to base types by name; the
form and the supertype are independent.
-/

namespace InterfaceSchema

/-- The element reference that means anything; a collection of it says nothing about its
elements. -/
def anyName : String := BaseType.any.name

/-- A field of a struct. -/
structure Field where
  name : String
  type : String
  optional : Bool
  /-- What a collection in this field holds. -/
  items : Option String
  comment : Option String
deriving DecidableEq, Repr

/-- What a constrained text must meet. -/
structure Constraints where
  pattern : Option String
  values : List String
  minSize : Option Int64
  maxSize : Option Int64
deriving DecidableEq, Repr

/-- An empty pattern and an empty list of values are no constraints. -/
def Constraints.any (c : Constraints) : Bool :=
  (nonEmpty? c.pattern).isSome || !c.values.isEmpty || c.minSize.isSome || c.maxSize.isSome

/-- What a declared type adds to its supertype. -/
inductive Form where
  | struct (fields : List Field)
  | enum (symbols : List String)
  | union (variants : List String)
  | map (items : String)
  | array (items : String)
  | text (constraints : Constraints)
  /-- Another name for the supertype, nothing more. -/
  | bare
deriving DecidableEq, Repr

/-- A declared type. -/
structure TypeDef where
  name : String
  supertype : String
  comment : Option String
  form : Form
deriving DecidableEq, Repr

/-- A description: its name and the types that it declares, in order. -/
structure Schema where
  name : String
  types : List TypeDef
deriving DecidableEq, Repr

end InterfaceSchema
