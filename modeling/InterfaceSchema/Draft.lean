import InterfaceSchema.Entries
import InterfaceSchema.Json.Basic

/-!
# Draft-04 schemas

The fragments of JSON Schema, draft 04, that describe declared types, and their JSON.  Elements
are what references come to; contents of properties are elements or collections of them; a
definition is a body under a description.
-/

namespace InterfaceSchema.Draft

/-- The schema that documents declare for themselves. -/
def dialect : String := "http://json-schema.org/draft-04/schema#"

/-- The reference to the definition under a name. -/
def pointer (name : String) : String := "#/definitions/" ++ name

/-- The schema of one element. -/
inductive Element where
  | ref (name : String)
  | string
  /-- A string that holds one octet. -/
  | byte
  | integer (format : Option String)
  /-- No type of the draft: it marks a reference for a reader to look at. -/
  | unmapped (name : String)
deriving DecidableEq, Repr

/-- The schema of a property's value. -/
inductive Content where
  | element (e : Element)
  | array (items : Option Element)
  | object (additional : Option Element)
deriving DecidableEq, Repr

/-- A property of a struct. -/
structure Property where
  description : Option String
  content : Content
deriving DecidableEq, Repr

/-- What a definition says besides its description. -/
inductive Body where
  | struct (properties : Entries Property) (required : List String)
  | array (type : String) (items : Option Element)
  | object (additional : Option Element)
  | enum (symbols : List String)
  | text (maxLength minLength : Option Int64) (pattern : Option String) (values : List String)
deriving DecidableEq, Repr

/-- The schema under a name. -/
structure Definition where
  description : Option String
  body : Body
deriving DecidableEq, Repr

/-- A member that is written only if its value is there. -/
def member? {α : Type} (key : String) (toJson : α → Json) (value : Option α) : Entries Json :=
  (value.map fun v => (key, toJson v)).toList

/-- A list of texts; an empty one is not there. -/
def texts? (ss : List String) : Option (List String) := if ss.isEmpty then none else some ss

def textsJson (ss : List String) : Json := .arr (ss.map .str)

def Element.members : Element → Entries Json
  | .ref name       => [("$ref", .str (pointer name))]
  | .string         => [("type", .str "string")]
  | .byte           => [("type", .str "string"), ("format", .str "byte")]
  | .integer format => ("type", .str "integer") :: member? "format" .str format
  | .unmapped name  => [("type", .str ("_" ++ name ++ "_"))]

def Element.toJson (e : Element) : Json := .obj e.members

def Content.members : Content → Entries Json
  | .element e         => e.members
  | .array items       => ("type", .str "array") :: member? "items" Element.toJson items
  | .object additional =>
    ("type", .str "object") :: member? "additionalProperties" Element.toJson additional

def Property.toJson (p : Property) : Json :=
  .obj (member? "description" .str p.description ++ p.content.members)

def Body.members : Body → Entries Json
  | .struct properties required =>
    ("properties", .obj (properties.map fun e => (e.1, e.2.toJson)))
      :: member? "required" textsJson (texts? required)
  | .array type items  => ("type", .str type) :: member? "items" Element.toJson items
  | .object additional =>
    ("type", .str "object") :: member? "additionalProperties" Element.toJson additional
  | .enum symbols      => [("enum", textsJson symbols)]
  | .text maxLength minLength pattern values =>
    ("type", .str "string")
      :: member? "maxLength" (fun n => .int n.toInt) maxLength
      ++ member? "minLength" (fun n => .int n.toInt) minLength
      ++ member? "pattern" .str pattern
      ++ member? "enum" textsJson (texts? values)

def Definition.toJson (d : Definition) : Json :=
  .obj (member? "description" .str d.description ++ d.body.members)

end InterfaceSchema.Draft
