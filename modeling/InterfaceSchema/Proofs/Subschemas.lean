import InterfaceSchema.Proofs.References

/-!
# Schemas within schemas

A schema in JSON may hold others: under `items` and `additionalProperties`, and under the names in
`definitions` and `properties`.  `Draft.SchemaAt` finds all of them, each at the end of the keys
that lead to it, and `Draft.HasKeyword` tells what one of them says for a keyword; members of other
objects, such as a property that is named as a keyword is, are nothing that a schema says.

* `Document.schemaAt_iff`, `Definition.schemaAt_iff`, `Property.schemaAt_iff`: the schemas within a
  document are the definitions, their properties, and what collections hold.
-/

namespace InterfaceSchema
namespace Draft

/-- The keys `path` lead from the schema `whole` to the schema `part`. -/
inductive SchemaAt : Json → List String → Json → Prop where
  | whole {v : Json} : SchemaAt v [] v
  | held {ms : Entries Json} {key : String} {v part : Json} {path : List String}
      (h : (key, v) ∈ ms) (hkey : key = "items" ∨ key = "additionalProperties")
      (hv : SchemaAt v path part) : SchemaAt (.obj ms) (key :: path) part
  | named {ms es : Entries Json} {key name : String} {v part : Json} {path : List String}
      (h : (key, .obj es) ∈ ms) (hkey : key = "definitions" ∨ key = "properties")
      (he : (name, v) ∈ es) (hv : SchemaAt v path part) :
      SchemaAt (.obj ms) (key :: name :: path) part

/-- The schema says `x` for a keyword. -/
def HasKeyword (schema : Json) (keyword : String) (x : Json) : Prop :=
  ∃ ms, schema = .obj ms ∧ (keyword, x) ∈ ms

@[simp]
theorem hasKeyword_obj_iff {ms : Entries Json} {keyword : String} {x : Json} :
    HasKeyword (.obj ms) keyword x ↔ (keyword, x) ∈ ms := by
  simp [HasKeyword]

/-- The schemas within an object: itself, and those that its members lead to. -/
theorem schemaAt_obj_iff {ms : Entries Json} {path : List String} {part : Json} :
    SchemaAt (.obj ms) path part ↔
      (path = [] ∧ part = .obj ms) ∨
      (∃ key v rest, (key = "items" ∨ key = "additionalProperties") ∧ (key, v) ∈ ms ∧
        path = key :: rest ∧ SchemaAt v rest part) ∨
      ∃ key es name v rest, (key = "definitions" ∨ key = "properties") ∧ (key, .obj es) ∈ ms ∧
        (name, v) ∈ es ∧ path = key :: name :: rest ∧ SchemaAt v rest part := by
  constructor
  · intro h
    cases h with
    | whole => exact .inl ⟨rfl, rfl⟩
    | held h hkey hv => exact .inr (.inl ⟨_, _, _, hkey, h, rfl, hv⟩)
    | named h hkey he hv => exact .inr (.inr ⟨_, _, _, _, _, hkey, h, he, rfl, hv⟩)
  · rintro (⟨rfl, rfl⟩ | ⟨_, _, _, hkey, h, rfl, hv⟩ | ⟨_, _, _, _, _, hkey, h, he, rfl, hv⟩)
    · exact .whole
    · exact .held h hkey hv
    · exact .named h hkey he hv

/-! ### Definitions and their parts -/

/-- What a property's collection holds, under the keyword for it. -/
def Content.held? : Content → Option (String × Element)
  | .element _   => none
  | .array held  => held.map ("items", ·)
  | .object held => held.map ("additionalProperties", ·)

/-- What a collection holds, under the keyword for it. -/
def Body.held? : Body → Option (String × Element)
  | .array _ held => held.map ("items", ·)
  | .object held  => held.map ("additionalProperties", ·)
  | .struct .. | .enum _ | .text .. => none

/-- The properties of a struct. -/
def Body.properties : Body → Entries Property
  | .struct properties _ => properties
  | .array .. | .object _ | .enum _ | .text .. => []

/-- A reference holds no schema but itself. -/
theorem Element.schemaAt_iff {e : Element} {path : List String} {part : Json} :
    SchemaAt e.toJson path part ↔ path = [] ∧ part = e.toJson := by
  rw [toJson, schemaAt_obj_iff]
  cases e <;> simp [members, mem_member?_iff]

/-- A property holds at most what its collection holds. -/
theorem Property.schemaAt_iff {p : Property} {path : List String} {part : Json} :
    SchemaAt p.toJson path part ↔
      (path = [] ∧ part = p.toJson) ∨
      ∃ key e, p.content.held? = some (key, e) ∧ path = [key] ∧ part = e.toJson := by
  obtain ⟨description, content⟩ := p
  rw [toJson, schemaAt_obj_iff]
  cases content with
  | element e => cases e <;> simp [Content.members, Content.held?, Element.members, mem_member?_iff]
  | array held | object held =>
      cases held <;>
        simp [Content.members, Content.held?, mem_member?_iff, Element.schemaAt_iff]

/-- A definition holds what its collection holds, or its properties. -/
theorem Definition.schemaAt_iff {v : Definition} {path : List String} {part : Json} :
    SchemaAt v.toJson path part ↔
      (path = [] ∧ part = v.toJson) ∨
      (∃ key e, v.body.held? = some (key, e) ∧ path = [key] ∧ part = e.toJson) ∨
      ∃ name p rest, (name, p) ∈ v.body.properties ∧ path = "properties" :: name :: rest ∧
        SchemaAt p.toJson rest part := by
  obtain ⟨description, body⟩ := v
  rw [toJson, schemaAt_obj_iff]
  cases body with
  | struct properties required =>
      simp [Body.members, Body.held?, Body.properties, mem_member?_iff]
  | array type held | object held =>
      cases held <;>
        simp [Body.members, Body.held?, Body.properties, mem_member?_iff, Element.schemaAt_iff]
  | enum symbols | text =>
      simp [Body.members, Body.held?, Body.properties, mem_member?_iff]

end Draft

open Draft (Definition SchemaAt)

/-- **The schemas within a document** are the definitions, each under its name, and the schemas
within these. -/
theorem Document.schemaAt_iff {d : Document} {path : List String} {part : Json} :
    SchemaAt d.toJson path part ↔
      (path = [] ∧ part = d.toJson) ∨
      ∃ name v rest, (name, v) ∈ d.definitions ∧ path = "definitions" :: name :: rest ∧
        SchemaAt v.toJson rest part := by
  rw [toJson_eq, Draft.schemaAt_obj_iff]
  by_cases hnil : d.definitions = [] <;> simp [hnil]

end InterfaceSchema
