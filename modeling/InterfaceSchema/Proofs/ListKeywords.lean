import InterfaceSchema.Proofs.Subschemas

/-!
# Lists that schemas say

Two keywords are followed by a list: `required`, in the definitions of structs, and `enum`, in
those of enums and of texts.  The draft asks of both that the list has something in it and nothing
twice, and of `required` that it names properties of the same schema (`Draft.LegalLists`).

* `noLists_or_definition`: no other schema of a document says a list.
* `required_subset`: a struct has a property under the name of each of its fields, so whatever it
  requires is one of its properties.
* `lists_legal_iff`: what is required is always something, and always among the properties.  All
  else that the draft asks holds exactly when no type that stands in the document requires a name
  twice, or lists a symbol or a value twice, and no enum is without symbols.
-/

namespace InterfaceSchema
namespace Draft

/-- What the draft asks of the lists that a schema says. -/
structure LegalLists (schema : Json) : Prop where
  required : ∀ x, HasKeyword schema "required" x → ∃ names es,
    x = textsJson names ∧ names ≠ [] ∧ names.Nodup ∧
      HasKeyword schema "properties" (.obj es) ∧ ∀ name ∈ names, name ∈ Entries.names es
  enum : ∀ x, HasKeyword schema "enum" x →
    ∃ values, x = textsJson values ∧ values ≠ [] ∧ values.Nodup

/-- The schema has neither keyword, and says no list for any other. -/
def NoLists (schema : Json) : Prop :=
  ∀ keyword x, HasKeyword schema keyword x →
    keyword ≠ "required" ∧ keyword ≠ "enum" ∧ ∀ items, x ≠ .arr items

/-- The names that a definition requires. -/
def Body.required : Body → List String
  | .struct _ required => required
  | .array .. | .object _ | .enum _ | .text .. => []

/-- The values that a definition lists. -/
def Body.enum? : Body → Option (List String)
  | .enum symbols      => some symbols
  | .text _ _ _ values => texts? values
  | .struct .. | .array .. | .object _ => none

theorem texts?_eq_some_iff {ss ts : List String} : texts? ss = some ts ↔ ss = ts ∧ ss ≠ [] := by
  cases ss <;> simp [texts?]

theorem textsJson_injective {ss ts : List String} (h : textsJson ss = textsJson ts) : ss = ts :=
  List.map_injective_iff.2 (fun _ _ => Json.str.inj) (Json.arr.inj h)

/-! ### What is said where -/

theorem NoLists.legalLists {schema : Json} (h : NoLists schema) : LegalLists schema :=
  ⟨fun x hx => absurd rfl (h _ x hx).1, fun x hx => absurd rfl (h _ x hx).2.1⟩

theorem Element.noLists (e : Element) : NoLists e.toJson := by
  intro keyword x hx
  rw [toJson, hasKeyword_obj_iff] at hx
  cases e <;> simp only [members, List.mem_cons, List.not_mem_nil, mem_member?_iff] at hx <;> grind

theorem Property.noLists (p : Property) : NoLists p.toJson := by
  intro keyword x hx
  obtain ⟨description, content⟩ := p
  rw [toJson, hasKeyword_obj_iff, List.mem_append, mem_member?_iff] at hx
  rcases hx with ⟨rfl, text, -, rfl⟩ | hx
  · simp
  · cases content with
    | element e => exact e.noLists keyword x (hasKeyword_obj_iff.2 hx)
    | array held | object held =>
        simp only [Content.members, List.mem_cons, mem_member?_iff, Element.toJson] at hx
        grind

/-- A definition says lists for the two keywords only. -/
theorem Definition.keyword_of_arr {v : Definition} {keyword : String} {items : List Json}
    (h : HasKeyword v.toJson keyword (.arr items)) : keyword = "required" ∨ keyword = "enum" := by
  obtain ⟨description, body⟩ := v
  rw [toJson, hasKeyword_obj_iff, List.mem_append, mem_member?_iff] at h
  rcases h with ⟨-, text, -, h⟩ | h
  · cases h
  · cases body <;>
      simp only [Body.members, List.cons_append, List.mem_cons, List.mem_append, List.not_mem_nil,
        mem_member?_iff, Element.toJson] at h <;>
      grind

theorem Definition.hasKeyword_required_iff {v : Definition} {x : Json} :
    HasKeyword v.toJson "required" x ↔ v.body.required ≠ [] ∧ x = textsJson v.body.required := by
  obtain ⟨description, body⟩ := v
  rw [toJson, hasKeyword_obj_iff]
  cases body <;> simp [Body.members, Body.required, mem_member?_iff, texts?_eq_some_iff]

theorem Definition.hasKeyword_enum_iff {v : Definition} {x : Json} :
    HasKeyword v.toJson "enum" x ↔ ∃ values, v.body.enum? = some values ∧ x = textsJson values := by
  obtain ⟨description, body⟩ := v
  rw [toJson, hasKeyword_obj_iff]
  cases body <;> simp [Body.members, Body.enum?, mem_member?_iff]

theorem Definition.hasKeyword_properties_iff {v : Definition} {x : Json} :
    HasKeyword v.toJson "properties" x ↔ ∃ ps required, v.body = .struct ps required ∧
      x = .obj (ps.map fun e => (e.1, e.2.toJson)) := by
  obtain ⟨description, body⟩ := v
  rw [toJson, hasKeyword_obj_iff]
  cases body <;> simp [Body.members, mem_member?_iff]

/-- The required names of a definition stand beside its properties. -/
theorem Definition.exists_properties {v : Definition} (hne : v.body.required ≠ [])
    (hnames : ∀ name ∈ v.body.required, name ∈ Entries.names v.body.properties) :
    ∃ es, HasKeyword v.toJson "properties" (.obj es) ∧
      ∀ name ∈ v.body.required, name ∈ Entries.names es := by
  cases hbody : v.body with
  | struct ps required =>
      refine ⟨_, hasKeyword_properties_iff.2 ⟨ps, required, hbody, rfl⟩, ?_⟩
      rw [Entries.names_map]
      rwa [hbody] at hnames
  | array | object | enum | text =>
      rw [hbody] at hne
      exact absurd rfl hne

/-- What the draft asks of the lists of a definition, where each required name has a property. -/
theorem Definition.legalLists_iff {v : Definition}
    (hnames : ∀ name ∈ v.body.required, name ∈ Entries.names v.body.properties) :
    LegalLists v.toJson ↔ v.body.required.Nodup ∧
      ∀ values, v.body.enum? = some values → values ≠ [] ∧ values.Nodup := by
  constructor
  · intro h
    refine ⟨?_, fun values hvalues => ?_⟩
    · by_cases hnil : v.body.required = []
      · rw [hnil]
        exact List.nodup_nil
      · obtain ⟨names, -, hx, -, hnodup, -⟩ :=
          h.required _ (hasKeyword_required_iff.2 ⟨hnil, rfl⟩)
        rwa [textsJson_injective hx]
    · obtain ⟨names, hx, hlegal⟩ := h.enum _ (hasKeyword_enum_iff.2 ⟨values, hvalues, rfl⟩)
      rwa [textsJson_injective hx]
  · rintro ⟨hnodup, henum⟩
    refine ⟨fun x hx => ?_, fun x hx => ?_⟩
    · obtain ⟨hne, rfl⟩ := hasKeyword_required_iff.1 hx
      obtain ⟨es, hes, hin⟩ := exists_properties hne hnames
      exact ⟨_, es, rfl, hne, hnodup, hes, hin⟩
    · obtain ⟨values, hvalues, rfl⟩ := hasKeyword_enum_iff.1 hx
      exact ⟨values, rfl, henum values hvalues⟩

end Draft

open Draft (Body Definition Property SchemaAt HasKeyword LegalLists NoLists)

theorem Document.noLists (d : Document) : NoLists d.toJson := by
  intro keyword x hx
  rw [toJson_eq, Draft.hasKeyword_obj_iff] at hx
  by_cases hnil : d.definitions = [] <;>
    simp only [hnil, if_true, if_false, List.mem_cons, List.not_mem_nil] at hx <;>
    grind

/-- **No schema of a document says a list**, except for its definitions. -/
theorem Document.noLists_or_definition {d : Document} {path : List String} {part : Json}
    (h : SchemaAt d.toJson path part) :
    NoLists part ∨ ∃ name v, (name, v) ∈ d.definitions ∧ path = ["definitions", name] ∧
      part = v.toJson := by
  rcases schemaAt_iff.1 h with ⟨-, rfl⟩ | ⟨name, v, rest, hv, rfl, hwithin⟩
  · exact .inl d.noLists
  · rcases Definition.schemaAt_iff.1 hwithin with
      ⟨rfl, rfl⟩ | ⟨key, e, -, -, rfl⟩ | ⟨field, p, rest, -, -, hinner⟩
    · exact .inr ⟨name, v, hv, rfl, rfl⟩
    · exact .inl e.noLists
    · rcases Property.schemaAt_iff.1 hinner with ⟨-, rfl⟩ | ⟨key, e, -, -, rfl⟩
      · exact .inl p.noLists
      · exact .inl e.noLists

/-! ### The lists of one type -/

namespace Registry
variable {reg : Registry}

/-- What a definition requires is among its properties. -/
theorem required_subset {t : TypeDef} {body : Body} (h : reg.body t = .ok (some body)) :
    ∀ name ∈ body.required, name ∈ Entries.names body.properties := by
  intro name hname
  cases body_eq_ok_iff.1 h with
  | struct hform hps =>
      obtain ⟨f, hf, rfl⟩ := List.mem_map.1 hname
      rw [Body.properties, names_properties hps, List.mem_eraseDups]
      exact List.mem_map_of_mem (List.mem_of_mem_filter hf)
  | array _ _ _ | map _ _ | enum _ | text _ _ | structAlias _ _ => cases hname

end Registry

/-- What the type declares makes lists as the draft asks for them: it requires no name twice, lists
no symbol or value twice, and is no enum without symbols. -/
def TypeDef.ListsLegal (t : TypeDef) : Prop :=
  match t.form with
  | .struct fields => (Registry.requiredNames fields).Nodup
  | .enum symbols  => symbols ≠ [] ∧ symbols.Nodup
  | .text c        => c.values.Nodup
  | .union _ | .map _ | .array _ | .bare => True

/-- The lists of a definition are those that its type declares. -/
theorem Registry.legalLists_iff_of_body {reg : Registry} {t : TypeDef} {v : Definition}
    (h : reg.body t = .ok (some v.body)) : LegalLists v.toJson ↔ t.ListsLegal := by
  rw [Definition.legalLists_iff (required_subset h), TypeDef.ListsLegal]
  generalize hb : v.body = body at h ⊢
  cases body_eq_ok_iff.1 h with
  | struct hform hps => simp [hform, Body.required, Body.enum?]
  | array hform _ _ | map hform _ | structAlias hform _ =>
      simp [hform, Body.required, Body.enum?]
  | enum hform => simp [hform, Body.required, Body.enum?]
  | @text c hform hany =>
      by_cases hnil : c.values = [] <;>
        simp [hform, Body.required, Body.enum?, Draft.texts?_eq_some_iff, hnil]

/-- A type that produces no definition declares no lists. -/
theorem TypeDef.listsLegal_of_not_defines {reg : Registry} {t : TypeDef} (h : ¬ reg.Defines t) :
    t.ListsLegal := by
  rw [Registry.Defines] at h
  rw [ListsLegal]
  cases hform : t.form with
  | struct _ | enum _ => simp [hform] at h
  | union _ | map _ | array _ | bare => trivial
  | text c =>
      simp only [hform, Constraints.any, Bool.or_eq_true, not_or] at h
      simp_all

namespace Document

/-- The lists of a document are as the draft asks when those of its definitions are. -/
theorem legalLists_iff {d : Document} :
    (∀ path part, SchemaAt d.toJson path part → LegalLists part) ↔
      ∀ name v, (name, v) ∈ d.definitions → LegalLists v.toJson := by
  constructor
  · intro h name v hv
    exact h _ _ (schemaAt_iff.2 (.inr ⟨name, v, [], hv, rfl, .whole⟩))
  · intro h path part hpart
    rcases noLists_or_definition hpart with hnone | ⟨name, v, hv, -, rfl⟩
    · exact hnone.legalLists
    · exact h name v hv

/-- **The lists of a document.**  Only `required` and `enum` are lists; what is required is
something, and is among the properties beside it.  The lists are all that the draft asks of them
exactly when no type that stands in the document requires a name twice, or lists a symbol or a value
twice, and no enum is without symbols. -/
theorem lists_legal_iff {s : Schema} {d : Document} (h : ofSchema s = .ok d) :
    (∀ path part, SchemaAt d.toJson path part →
      (∀ keyword items, HasKeyword part keyword (.arr items) →
        keyword = "required" ∨ keyword = "enum") ∧
      ∀ x, HasKeyword part "required" x → ∃ names es, x = Draft.textsJson names ∧ names ≠ [] ∧
        HasKeyword part "properties" (.obj es) ∧ ∀ name ∈ names, name ∈ Entries.names es) ∧
    ((∀ path part, SchemaAt d.toJson path part → LegalLists part) ↔
      ∀ t, s.Stands t → t.ListsLegal) := by
  constructor
  · intro path part hpart
    rcases noLists_or_definition hpart with hnone | ⟨name, v, hv, -, rfl⟩
    · exact ⟨fun keyword items hx => absurd rfl ((hnone _ _ hx).2.2 items),
        fun x hx => absurd rfl (hnone _ x hx).1⟩
    · obtain ⟨t, -, -, hconvert⟩ := (mem_definitions_iff h).1 hv
      refine ⟨fun keyword items => Definition.keyword_of_arr, fun x hx => ?_⟩
      obtain ⟨hne, rfl⟩ := Definition.hasKeyword_required_iff.1 hx
      obtain ⟨es, hes, hin⟩ :=
        Definition.exists_properties hne (Registry.required_subset (body_of_convert hconvert))
      exact ⟨_, es, rfl, hne, hes, hin⟩
  · rw [legalLists_iff]
    constructor
    · intro hlegal t hstands
      by_cases hdefines : (Registry.ofSchema s).Defines t
      · obtain ⟨v, hv⟩ := exists_convert_of_defines h hstands.mem hdefines
        have hthere := (mem_definitions_iff h).2 ⟨t, hstands, rfl, hv⟩
        exact (Registry.legalLists_iff_of_body (body_of_convert hv)).1 (hlegal _ v hthere)
      · exact TypeDef.listsLegal_of_not_defines hdefines
    · intro hlegal name v hv
      obtain ⟨t, hstands, -, hconvert⟩ := (mem_definitions_iff h).1 hv
      exact (Registry.legalLists_iff_of_body (body_of_convert hconvert)).2 (hlegal t hstands)

/-- A struct that declares a field twice but requires it once, beside an enum and a closed text. -/
theorem lists_legal_shirt :
    let s : Schema := ⟨"Shirts", [⟨"Size", "Enum", none, .enum ["S", "M"]⟩,
      ⟨"Fit", "String", none, .text ⟨none, ["slim", "wide"], none, none⟩⟩,
      ⟨"Shirt", "Struct", none, .struct [⟨"size", "Size", true, none, none⟩,
        ⟨"size", "Size", false, none, none⟩, ⟨"fit", "Fit", false, none, none⟩]⟩]⟩
    ∃ d, ofSchema s = .ok d ∧
      (∀ path part, SchemaAt d.toJson path part →
        (∀ keyword items, HasKeyword part keyword (.arr items) →
          keyword = "required" ∨ keyword = "enum") ∧
        ∀ x, HasKeyword part "required" x → ∃ names es, x = Draft.textsJson names ∧ names ≠ [] ∧
          HasKeyword part "properties" (.obj es) ∧ ∀ name ∈ names, name ∈ Entries.names es) ∧
      ((∀ path part, SchemaAt d.toJson path part → LegalLists part) ↔
        ∀ t, s.Stands t → t.ListsLegal) ∧
      ∀ t ∈ s.types, t.ListsLegal := by
  intro s
  obtain ⟨d, h⟩ : ∃ d, ofSchema s = .ok d := ⟨_, rfl⟩
  obtain ⟨hlists, hiff⟩ := lists_legal_iff h
  refine ⟨d, h, hlists, hiff, ?_⟩
  simp [s, TypeDef.ListsLegal, Registry.requiredNames]

/-- An enum without symbols lists nothing, and a struct that declares a field twice requires it
twice. -/
theorem lists_not_legal_empty_and_repeated :
    let s : Schema := ⟨"Odd", [⟨"E", "Enum", none, .enum []⟩,
      ⟨"S", "Struct", none, .struct [⟨"f", "Int8", false, none, none⟩,
        ⟨"f", "Int8", false, none, none⟩]⟩]⟩
    ∃ d, ofSchema s = .ok d ∧
      (∃ part, SchemaAt d.toJson ["definitions", "E"] part ∧ HasKeyword part "enum" (.arr [])) ∧
      (∃ part, SchemaAt d.toJson ["definitions", "S"] part ∧
        HasKeyword part "required" (.arr [.str "f", .str "f"])) ∧
      ¬ ∀ path part, SchemaAt d.toJson path part → LegalLists part := by
  intro s
  obtain ⟨d, h, ⟨e, he, hlist⟩, w, hw, hnames⟩ : ∃ d, ofSchema s = .ok d ∧
      (∃ e, ("E", e) ∈ d.definitions ∧ e.body.enum? = some []) ∧
      ∃ w, ("S", w) ∈ d.definitions ∧ w.body.required = ["f", "f"] :=
    ⟨_, rfl, ⟨_, List.mem_cons_self, rfl⟩, _, List.mem_cons_of_mem _ List.mem_cons_self, rfl⟩
  have hpartE : SchemaAt d.toJson ["definitions", "E"] e.toJson :=
    schemaAt_iff.2 (.inr ⟨"E", e, [], he, rfl, .whole⟩)
  have hpartS : SchemaAt d.toJson ["definitions", "S"] w.toJson :=
    schemaAt_iff.2 (.inr ⟨"S", w, [], hw, rfl, .whole⟩)
  have henum : HasKeyword e.toJson "enum" (Draft.textsJson []) :=
    Definition.hasKeyword_enum_iff.2 ⟨[], hlist, rfl⟩
  have hrequired : HasKeyword w.toJson "required" (Draft.textsJson ["f", "f"]) :=
    Definition.hasKeyword_required_iff.2 (by simp [hnames])
  refine ⟨d, h, ⟨_, hpartE, henum⟩, ⟨_, hpartS, hrequired⟩, fun hlegal => ?_⟩
  obtain ⟨values, hx, hne, -⟩ := (hlegal _ _ hpartE).enum _ henum
  exact hne (Draft.textsJson_injective hx.symm)

end Document
end InterfaceSchema
