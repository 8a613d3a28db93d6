import InterfaceSchema.Proofs.Revision

/-!
# Comments and optional fields

A comment is said of a definition or a property, and that a field may be left out is said of its
struct; neither has a part in anything else.  Where all comments are dropped and all fields are
optional (`Schema.undecorated`), the same types are converted, to the same definitions but for
their descriptions and the lists of what is required (`Document.undecorate`).

In JSON this is the document with members taken out (`Document.undecorateJson`): the descriptions
and requirements of definitions and the descriptions of their properties.  Properties of those
names are no such members and stay.

* `define_undecorated`: what becomes of one type.
* `toJson_undecorate`: what becomes of the JSON.
* `undecorated_decided`: what becomes of a document, and of its error where there is none.
-/

namespace InterfaceSchema

open Draft (Element Content Property Body Definition)

/-! ### Without comments, all optional -/

/-- The field without its comment, which may be left out. -/
def Field.undecorated (f : Field) : Field := { f with optional := true, comment := none }

def Form.undecorated : Form → Form
  | .struct fields => .struct (fields.map Field.undecorated)
  | form => form

/-- The type without comments, where all fields may be left out. -/
def TypeDef.undecorated (t : TypeDef) : TypeDef :=
  { t with comment := none, form := t.form.undecorated }

def Schema.undecorated (s : Schema) : Schema := s.map TypeDef.undecorated

/-- The property without its description. -/
def Draft.Property.undecorate (p : Property) : Property := { p with description := none }

def Draft.Body.undecorate : Body → Body
  | .struct ps _ => .struct (ps.map fun e => (e.1, e.2.undecorate)) []
  | body => body

/-- The definition without descriptions that requires nothing. -/
def Draft.Definition.undecorate (d : Definition) : Definition :=
  { description := none, body := d.body.undecorate }

def Document.undecorate (d : Document) : Document :=
  { d with definitions := d.definitions.map fun e => (e.1, e.2.undecorate) }

/-! ### Conversion -/

theorem TypeDef.diagnostic?_undecorated (t : TypeDef) :
    t.undecorated.diagnostic? = t.diagnostic? := by
  obtain ⟨_, _, _, form⟩ := t
  cases form <;> rfl

namespace Registry
variable {reg : Registry}

/-- Chains and searches see nothing of comments and of what is optional. -/
theorem keeps_undecorated (reg : Registry) : reg.Keeps TypeDef.undecorated where
  name _ := rfl
  supertype _ := rfl
  nearest reference t := by
    obtain ⟨_, _, _, form⟩ := t
    cases form <;> rfl
  nearestText t := by
    obtain ⟨_, _, _, form⟩ := t
    cases form <;> rfl
  items t base := by
    obtain ⟨_, _, _, form⟩ := t
    cases form <;> cases base <;> rfl

/-- A property loses its description and nothing else. -/
theorem property_undecorated (f : Field) :
    (reg.map TypeDef.undecorated).property f.undecorated =
      (reg.property f).map (·.undecorate) := by
  have hcontent : (reg.map TypeDef.undecorated).content f.undecorated = reg.content f :=
    content_map reg.keeps_undecorated rfl rfl
  rw [property, property, hcontent]
  cases reg.content f <;> rfl

theorem properties_undecorated (fields : List Field) :
    (reg.map TypeDef.undecorated).properties (fields.map Field.undecorated) =
      (reg.properties fields).map fun ps => ps.map fun e => (e.1, e.2.undecorate) :=
  properties_map (fun _ => rfl) fun f _ => property_undecorated f

/-- Nothing is required any more. -/
theorem requiredNames_undecorated (fields : List Field) :
    requiredNames (fields.map Field.undecorated) = [] := by
  simp [requiredNames, Field.undecorated]

/-- A body loses the descriptions in it and what is required. -/
theorem body_undecorated (t : TypeDef) :
    (reg.map TypeDef.undecorated).body t.undecorated =
      (reg.body t).map (Option.map (·.undecorate)) := by
  obtain ⟨name, supertype, comment, form⟩ := t
  cases form with
  | struct fields =>
      rw [body, body]
      simp only [TypeDef.undecorated, Form.undecorated, requiredNames_undecorated,
        properties_undecorated]
      cases reg.properties fields <;> rfl
  | array items =>
      rw [body_map reg.keeps_undecorated (by simp [TypeDef.undecorated, Form.undecorated]),
        body, body]
      simp only [TypeDef.undecorated, Form.undecorated]
      cases reg.baseOf supertype with
      | error e => rfl
      | ok base => cases reg.elements .included (some items) <;> rfl
  | map items =>
      rw [body_map reg.keeps_undecorated (by simp [TypeDef.undecorated, Form.undecorated]),
        body, body]
      simp only [TypeDef.undecorated, Form.undecorated]
      cases reg.elements .included (some items) <;> rfl
  | enum _ | union _ => rfl
  | text c =>
      rw [body, body]
      simp only [TypeDef.undecorated, Form.undecorated]
      cases c.any <;> rfl
  | bare =>
      rw [body_map reg.keeps_undecorated (by simp [TypeDef.undecorated, Form.undecorated]),
        body, body]
      simp only [TypeDef.undecorated, Form.undecorated]
      cases reg.baseOf supertype with
      | error e => rfl
      | ok base => cases base <;> rfl

/-- **A type without comments and requirements comes to its definition without them.** -/
theorem define_undecorated (t : TypeDef) :
    (reg.map TypeDef.undecorated).define (.declared t.undecorated) =
      (reg.define (.declared t)).map (Option.map (·.undecorate)) := by
  rw [define_declared_eq, define_declared_eq, body_undecorated]
  rcases reg.body t with e | _ | body <;> rfl

end Registry

/-! ### JSON -/

/-- The object without its members under a key. -/
def Json.without (key : String) : Json → Json
  | .obj es => .obj (es.filter (·.1 ≠ key))
  | v => v

/-- The object whose values are changed by `f`. -/
def Json.mapValues (f : Json → Json) : Json → Json
  | .obj es => .obj (es.map fun e => (e.1, f e.2))
  | v => v

/-- The object whose values under a key are changed by `f`. -/
def Json.mapAt (key : String) (f : Json → Json) : Json → Json
  | .obj es => .obj (es.map fun e => if e.1 = key then (e.1, f e.2) else e)
  | v => v

/-- A definition without its description, its requirements and the descriptions of its
properties. -/
def Draft.Definition.undecorateJson (v : Json) : Json :=
  ((v.without "description").without "required").mapAt "properties"
    (Json.mapValues (Json.without "description"))

/-- A document all of whose definitions are without these. -/
def Document.undecorateJson : Json → Json :=
  Json.mapAt "definitions" (Json.mapValues Definition.undecorateJson)

namespace Draft

/-- Contents have no description. -/
theorem Content.filter_members (c : Content) :
    c.members.filter (·.1 ≠ "description") = c.members := by
  rcases c with (name | _ | _ | (_ | format) | name) | (_ | items) | (_ | additional) <;> rfl

/-- In JSON, a property loses the member for its description. -/
theorem Property.toJson_undecorate (p : Property) :
    p.undecorate.toJson = p.toJson.without "description" := by
  rw [toJson, toJson, Json.without, List.filter_append, Content.filter_members]
  cases p.description <;> rfl

/-- **The JSON of a definition without descriptions and requirements** is that of the definition
without those members. -/
theorem Definition.toJson_undecorate (d : Definition) :
    d.undecorate.toJson = undecorateJson d.toJson := by
  obtain ⟨description, body⟩ := d
  cases body with
  | struct ps required =>
      have hps : (ps.map fun e => (e.1, e.2.undecorate)).map (fun e => (e.1, e.2.toJson)) =
          (ps.map fun e => (e.1, e.2.toJson)).map fun e => (e.1, e.2.without "description") := by
        simp [Property.toJson_undecorate, Function.comp_def]
      simp only [undecorate, toJson, Body.undecorate, Body.members, hps]
      cases description <;> cases texts? required <;> rfl
  | array type items => cases description <;> cases items <;> rfl
  | object additional => cases description <;> cases additional <;> rfl
  | enum symbols => cases description <;> rfl
  | text maxLength minLength pattern values =>
      simp only [undecorate, toJson, Body.undecorate, Body.members]
      cases description <;> cases maxLength <;> cases minLength <;> cases pattern <;>
        cases texts? values <;> rfl

end Draft

/-! ### Documents -/

namespace Document

/-- **The JSON of a document without descriptions and requirements** is that of the document
without those members. -/
theorem toJson_undecorate (d : Document) : d.undecorate.toJson = undecorateJson d.toJson := by
  have hdefinitions : (d.definitions.map fun e => (e.1, e.2.undecorate)).map
      (fun e => (e.1, e.2.toJson)) =
      (d.definitions.map fun e => (e.1, e.2.toJson)).map
        fun e => (e.1, Definition.undecorateJson e.2) := by
    simp [Definition.toJson_undecorate, Function.comp_def]
  simp only [toJson, undecorate, hdefinitions, List.isEmpty_map]
  cases d.definitions.isEmpty <;> rfl

/-- The document of a schema without decoration is the document without it. -/
theorem ofSchema_undecorated (s : Schema) :
    ofSchema s.undecorated = (ofSchema s).map (·.undecorate) := by
  refine ofSchema_map (fun _ => rfl) TypeDef.diagnostic?_undecorated fun t _ => ?_
  rw [Schema.convert_eq, Schema.convert_eq, Registry.ofSchema_map]
  exact Registry.define_undecorated t

/-- **Comments and optional fields have a part in descriptions and requirements only.**  Without
comments and with all fields optional the schema has a document if it had one, with the same to
say about it, and its JSON is what that was without the descriptions and requirements; otherwise
it fails as it did. -/
theorem undecorated_decided (s : Schema) :
    (∀ e, ofSchema s.undecorated = .error e ↔ ofSchema s = .error e) ∧
      ((∃ d, ofSchema s.undecorated = .ok d) ↔ ∃ d, ofSchema s = .ok d) ∧
      ∀ d d', ofSchema s = .ok d → ofSchema s.undecorated = .ok d' →
        d'.diagnostics = d.diagnostics ∧ d'.toJson = undecorateJson d.toJson := by
  rw [ofSchema_undecorated]
  refine ⟨fun e => map_eq_error_iff, exists_map_eq_ok_iff, fun d d' h h' => ?_⟩
  obtain ⟨_, hd, rfl⟩ := map_eq_ok_iff.1 h'
  obtain rfl := Except.ok.inj (h.symm.trans hd)
  exact ⟨rfl, toJson_undecorate d⟩

/-- A property that is named as the keyword stays, without its description. -/
example :
    (ofSchema ⟨"", [⟨"S", "Struct", some "A type.",
      .struct [⟨"description", "Int32", false, none, some "A field."⟩]⟩]⟩).map
        (fun d => undecorateJson d.toJson) =
      .ok (.obj [("$schema", .str Draft.dialect), ("definitions", .obj [("S", .obj [("properties",
        .obj [("description", .obj [("type", .str "integer")])])])])]) :=
  rfl

end Document
end InterfaceSchema
