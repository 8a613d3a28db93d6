import InterfaceSchema.Json.Printer
import InterfaceSchema.Conversion

/-!
# Documents

One draft-04 document for a whole schema: a definition for every declared type that produces
one, in the order of declaration, and the diagnostics on the way.  The first type that cannot be
converted fails the document.
-/

namespace InterfaceSchema

open Draft (Definition)

/-- The definitions of a schema, and what has to be said about them. -/
structure Document where
  definitions : Entries Definition
  diagnostics : List Diagnostic

namespace Document

/-- A document in the making. -/
structure Assembly where
  session : Session
  definitions : Entries Definition

/-- Converts one more type and puts its definition, if any, under its name. -/
def Assembly.add (a : Assembly) (t : TypeDef) : Except ConversionError Assembly :=
  match a.session.convert (.declared t) with
  | (.error e, _) => .error e
  | (.ok none, session) => .ok { a with session }
  | (.ok (some d), session) => .ok { session, definitions := Entries.insert t.name d a.definitions }

/-- The document of a schema. -/
def ofSchema (s : Schema) : Except ConversionError Document :=
  (s.types.foldlM Assembly.add ⟨⟨.ofSchema s, []⟩, []⟩).map fun a =>
    ⟨a.definitions, a.session.diagnostics⟩

/-- The document in JSON.  Without any definition there is no member for them. -/
def toJson (d : Document) : Json :=
  .obj (("$schema", .str Draft.dialect) ::
    if d.definitions.isEmpty then []
    else [("definitions", .obj (d.definitions.map fun e => (e.1, e.2.toJson)))])

/-- The text of the document. -/
def render (d : Document) : String := d.toJson.render

end Document

end InterfaceSchema
