import InterfaceSchema.Idl.Basic
import InterfaceSchema.Json.Shape

/-!
# Interface descriptions — in JSON

The shapes of schemas, types, fields and enum elements in JSON, and what their values mean.  The
form of a type is that of the first of its members that is there; values left out and nulls are
the same.
-/

namespace InterfaceSchema

open Json (Shape Members)
open InterfaceSchema.Text (Bytes)

/-- The shape of a struct field. -/
def Field.shape : Shape := .record "Field" <|
  .cons "name" .required .text <|
  .cons "type" .required .text <|
  .cons "optional" .defaulted .flag <|
  .cons "items" .defaulted (.nullable .text) <|
  .cons "comment" .defaulted (.nullable .text) .empty

def Field.ofRecord : Field.shape.Val → Field
  | (name, type, optional, items, comment, ()) => { name, type, optional, items, comment }

/-- The shape of an enum element: its symbol. -/
def symbolShape : Shape := .record "EnumElementDef" <| .cons "symbol" .required .text .empty

def symbolOfRecord : symbolShape.Val → String
  | (symbol, ()) => symbol

/-- The shape of a declared type: the members of all forms. -/
def TypeDef.shape : Shape := .record "RawType" <|
  .cons "type" .required .text <|
  .cons "name" .required .text <|
  .cons "comment" .omissible (.nullable .text) <|
  .cons "fields" .omissible (.nullable (.list Field.shape)) <|
  .cons "elements" .omissible (.nullable (.list symbolShape)) <|
  .cons "variants" .omissible (.nullable (.list .text)) <|
  .cons "keys" .omissible (.nullable .text) <|
  .cons "items" .omissible (.nullable .text) <|
  .cons "pattern" .omissible (.nullable .text) <|
  .cons "values" .omissible (.nullable (.list .text)) <|
  .cons "minSize" .omissible (.nullable .integer) <|
  .cons "maxSize" .omissible (.nullable .integer) .empty

/-- The members that tell the form of a type. -/
structure FormMembers where
  fields : Option (List Field)
  elements : Option (List String)
  variants : Option (List String)
  keys : Option String
  items : Option String
  pattern : Option String
  values : Option (List String)
  minSize : Option Int64
  maxSize : Option Int64

/-- The form of the first member that is there.  A map whose items are not given holds anything. -/
def FormMembers.form (m : FormMembers) : Form :=
  match m.fields, m.elements, m.variants, m.keys, m.items with
  | some fields, _, _, _, _               => .struct fields
  | none, some symbols, _, _, _           => .enum symbols
  | none, none, some variants, _, _       => .union variants
  | none, none, none, some _, items       => .map (items.getD anyName)
  | none, none, none, none, some items    => .array items
  | none, none, none, none, none          =>
    if m.pattern.isSome || m.values.isSome || m.minSize.isSome || m.maxSize.isSome then
      .text ⟨m.pattern, m.values.getD [], m.minSize, m.maxSize⟩
    else
      .bare

def TypeDef.ofRecord : TypeDef.shape.Val → TypeDef
  | (supertype, name, comment, fields, elements, variants, keys, items, pattern, values, minSize,
      maxSize, ()) =>
    let members : FormMembers :=
      { fields := fields.map (List.map Field.ofRecord)
        elements := elements.map (List.map symbolOfRecord)
        variants, keys, items, pattern, values, minSize, maxSize }
    { name, supertype, comment, form := members.form }

/-- The shape of a schema. -/
def Schema.shape : Shape := .record "Schema" <|
  .cons "name" .defaulted .text <|
  .cons "types" .defaulted (.list TypeDef.shape) .empty

def Schema.ofRecord : Schema.shape.Val → Schema
  | (name, types, ()) => { name, types := List.map TypeDef.ofRecord types }

/-- Reads a schema off the front of an input. -/
def Schema.read (input : Bytes) : Except Json.Located Schema :=
  (Schema.shape.read input).map Schema.ofRecord

/-- Reads a declared type off the front of an input. -/
def TypeDef.read (input : Bytes) : Except Json.Located TypeDef :=
  (TypeDef.shape.read input).map TypeDef.ofRecord

/-- Reads a field off the front of an input. -/
def Field.read (input : Bytes) : Except Json.Located Field :=
  (Field.shape.read input).map Field.ofRecord

/-- Reads the symbol of an enum element off the front of an input. -/
def readSymbol (input : Bytes) : Except Json.Located String :=
  (symbolShape.read input).map symbolOfRecord

end InterfaceSchema
