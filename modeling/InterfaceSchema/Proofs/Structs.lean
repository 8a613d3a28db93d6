import InterfaceSchema.Proofs.Decoration

/-!
# Definitions of structs

One loop over the fields of a struct works out its properties, and stops at the first field that
fails.  Fields of one name share a property, which is that of the last and stands where the first
is; each is required for itself.  What a property says besides its description hangs on the type of
its field and on what that holds (`Registry.shape`).

* `define_struct`: the definition of a struct is its properties and what it requires.
* `toJson_property`: a property is its description and then its shape.
* `get?_properties`: the property under a name is that of the last field of the name.
* `struct_decided`: so the fields decide whether there is a definition, and all that is in it.
-/

namespace InterfaceSchema

open Draft (Content Property Body Definition member?)

/-! ### Properties -/

/-- Contents have no description. -/
theorem Draft.Content.description_not_mem (c : Content) :
    "description" ∉ Entries.names c.members := by
  intro hmem
  obtain ⟨m, hm, hname⟩ := List.mem_map.1 hmem
  have hkept := List.filter_eq_self.1 c.filter_members m hm
  simp [hname] at hkept

namespace Registry
variable {reg : Registry}

/-- What is said, besides its description, of a field of the type `type` that holds `items`. -/
def shape (reg : Registry) (type : String) (items : Option String) :
    Except LookupError (Entries Json) :=
  (reg.content ⟨"", type, false, items, none⟩).map Content.members

theorem content_eq_of_eq {f g : Field} (htype : f.type = g.type) (hitems : f.items = g.items) :
    reg.content f = reg.content g := by
  rw [content, content, htype, hitems]

/-- **A property is its description and then its shape**, and fails as this does. -/
theorem toJson_property (f : Field) :
    (reg.property f).map Property.toJson = (reg.shape f.type f.items).map fun shape =>
      .obj (member? "description" .str (nonEmpty? f.comment) ++ shape) := by
  have hcontent : reg.content f = reg.content ⟨"", f.type, false, f.items, none⟩ :=
    content_eq_of_eq rfl rfl
  rw [property, shape, hcontent]
  cases reg.content ⟨"", f.type, false, f.items, none⟩ <;> rfl

theorem description_not_mem_shape {type : String} {items : Option String} {shape : Entries Json}
    (h : reg.shape type items = .ok shape) : "description" ∉ Entries.names shape := by
  obtain ⟨c, -, rfl⟩ := map_eq_ok_iff.1 h
  exact c.description_not_mem

/-- The property under a name is that of the last field of the name. -/
theorem get?_properties {fields : List Field} {ps : Entries Property}
    (h : reg.properties fields = .ok ps) {key : String} {p : Property} :
    Entries.get? key ps = some p ↔ ∃ before f after, fields = before ++ f :: after ∧
      f.name = key ∧ reg.property f = .ok p ∧ ∀ g ∈ after, g.name ≠ key := by
  rw [← Entries.mem_iff_get? (nodup_names_properties h), mem_properties_iff h]

/-! ### Structs -/

theorem define_struct (name supertype : String) (comment : Option String) (fields : List Field) :
    reg.define (.declared ⟨name, supertype, comment, .struct fields⟩) =
      match reg.properties fields with
      | .error e => .error (.lookup e)
      | .ok ps => .ok (some ⟨nonEmpty? comment, .struct ps (requiredNames fields)⟩) := by
  rw [define_declared_eq, body]
  cases hps : reg.properties fields <;> simp only [hps] <;> rfl

section
variable {name supertype : String} {comment : Option String} {fields : List Field}

theorem define_struct_eq_ok_iff {o : Option Definition} :
    reg.define (.declared ⟨name, supertype, comment, .struct fields⟩) = .ok o ↔
      ∃ ps, reg.properties fields = .ok ps ∧
        o = some ⟨nonEmpty? comment, .struct ps (requiredNames fields)⟩ := by
  rw [define_struct]
  cases reg.properties fields <;> simp [eq_comm]

theorem define_struct_eq_error_iff {e : ConversionError} :
    reg.define (.declared ⟨name, supertype, comment, .struct fields⟩) = .error e ↔
      ∃ cause, reg.properties fields = .error cause ∧ e = .lookup cause := by
  rw [define_struct]
  cases reg.properties fields <;> simp [eq_comm]

end

/-- What is required is listed, unless every field may be left out. -/
theorem member?_required (fields : List Field) :
    member? "required" Draft.textsJson (Draft.texts? (requiredNames fields)) =
      if fields.all (·.optional) then []
      else [("required",
        .arr ((fields.filter fun f => !f.optional).map fun f => .str f.name))] := by
  have hnone : requiredNames fields = [] ↔ fields.all (·.optional) = true := by
    simp [requiredNames]
  by_cases hall : fields.all (·.optional) = true
  · rw [hnone.2 hall, if_pos hall]
    rfl
  · have hsome : Draft.texts? (requiredNames fields) = some (requiredNames fields) := by
      simp [Draft.texts?, hnone, hall]
    rw [hsome, if_neg hall, requiredNames]
    simp [member?, Draft.textsJson]

/-- **The fields of a struct decide its definition.**  There is one when all of them have a
property; otherwise the error is that of the first that has none.  It is the description, the
properties, and what is required, if anything is.  The properties stand under the names of the
fields, each where it first comes, and are those of the last fields of these names; the names of
the fields that may not be left out are required in the order of the fields.  A property is the
description of its field and then a shape, which has no description and hangs on the type of the
field and its items only. -/
theorem struct_decided (reg : Registry) (name supertype : String) (comment : Option String)
    (fields : List Field) :
    let struct : Referent := .declared ⟨name, supertype, comment, .struct fields⟩
    ((∃ o, reg.define struct = .ok o) ↔ ∀ f ∈ fields, ∃ p, reg.property f = .ok p) ∧
    (∀ e, reg.define struct = .error e ↔ ∃ before f after cause,
      fields = before ++ f :: after ∧ (∀ g ∈ before, ∃ p, reg.property g = .ok p) ∧
        reg.property f = .error cause ∧ e = .lookup cause) ∧
    (∀ o, reg.define struct = .ok o → ∃ v es, o = some v ∧
      v.toJson = .obj (member? "description" .str (nonEmpty? comment) ++ ("properties", .obj es) ::
        if fields.all (·.optional) then []
        else [("required",
          .arr ((fields.filter fun f => !f.optional).map fun f => .str f.name))]) ∧
      Entries.names es = (fields.map (·.name)).eraseDups ∧ (Entries.names es).Nodup ∧
      ∀ key j, Entries.get? key es = some j ↔ ∃ before f after p,
        fields = before ++ f :: after ∧ f.name = key ∧ (∀ g ∈ after, g.name ≠ key) ∧
          reg.property f = .ok p ∧ p.toJson = j) ∧
    ∀ f : Field,
      (reg.property f).map Property.toJson = (reg.shape f.type f.items).map (fun shape =>
        .obj (member? "description" .str (nonEmpty? f.comment) ++ shape)) ∧
      ∀ shape, reg.shape f.type f.items = .ok shape → "description" ∉ Entries.names shape := by
  intro struct
  refine ⟨exists_define_iff.trans (forall₂_congr fun f _ => exists_property_iff.symm), fun e => ?_,
    fun o ho => ?_, fun f => ⟨toJson_property f, fun _ => description_not_mem_shape⟩⟩
  · simp only [struct, define_struct_eq_error_iff, properties_eq_error_iff, ← exists_property_iff,
      ← property_eq_error_iff]
    constructor
    · rintro ⟨cause, ⟨before, f, after, hfields, hbefore, hf⟩, he⟩
      exact ⟨before, f, after, cause, hfields, hbefore, hf, he⟩
    · rintro ⟨before, f, after, cause, hfields, hbefore, hf, he⟩
      exact ⟨cause, ⟨before, f, after, hfields, hbefore, hf⟩, he⟩
  · obtain ⟨ps, hps, rfl⟩ := define_struct_eq_ok_iff.1 ho
    refine ⟨_, ps.map fun e => (e.1, e.2.toJson), rfl, ?_, ?_, ?_, fun key j => ?_⟩
    · rw [Draft.Definition.toJson, Body.members, member?_required]
    · rw [Entries.names_map, names_properties hps]
    · rw [Entries.names_map]
      exact nodup_names_properties hps
    · rw [Entries.get?_map, Option.map_eq_some_iff]
      constructor
      · rintro ⟨p, hp, hj⟩
        obtain ⟨before, f, after, hfields, hname, hproperty, hafter⟩ := (get?_properties hps).1 hp
        exact ⟨before, f, after, p, hfields, hname, hafter, hproperty, hj⟩
      · rintro ⟨before, f, after, p, hfields, hname, hafter, hproperty, hj⟩
        exact ⟨p, (get?_properties hps).2 ⟨before, f, after, hfields, hname, hproperty, hafter⟩, hj⟩

/-- Two fields of one name around another one: the first gives its place, and the second the
property.  Both are required. -/
theorem struct_decided_repeated :
    let reg : Registry := ⟨[]⟩
    let fields : List Field := [⟨"at", "Int8", false, none, some "When."⟩,
      ⟨"by", "Map", true, some "Int64", none⟩, ⟨"at", "Int64", false, none, some ""⟩]
    ∃ v es, reg.define (.declared ⟨"Stamp", "Struct", some "", .struct fields⟩) = .ok (some v) ∧
      v.toJson = .obj [("properties", .obj es), ("required", .arr [.str "at", .str "at"])] ∧
      Entries.names es = ["at", "by"] ∧
      Entries.get? "at" es = some (.obj [("type", .str "integer")]) := by
  intro reg fields
  obtain ⟨o, ho⟩ := (struct_decided reg "Stamp" "Struct" (some "") fields).1.2 (by
    simp only [fields, List.forall_mem_cons]
    exact ⟨⟨_, rfl⟩, ⟨_, rfl⟩, ⟨_, rfl⟩, nofun⟩)
  obtain ⟨v, es, rfl, hjson, hnames, -, hget⟩ :=
    (struct_decided reg "Stamp" "Struct" (some "") fields).2.2.1 o ho
  refine ⟨v, es, ho, hjson, hnames.trans (by decide), (hget _ _).2 ?_⟩
  exact ⟨[_, _], _, [], _, rfl, rfl, nofun, rfl, rfl⟩

end Registry
end InterfaceSchema
