import InterfaceSchema.Proofs.TypeKeywords

/-!
# What schemas say for `format`

Two kinds of schemas say a format.  A string that holds one octet says `byte`, wherever it stands.
An integer says the reference to it in small letters, or nothing: that hangs on where the reference
stands.  `Schema.RefersAt` finds every reference of a schema with the keys that lead to its schema
in the document, and tells whether integers say their format there.

* `element_formatted`, `property_formatted`: what the schema of a reference says (`Formatted`).
* `schemaAt_of_refersAt`: the keys of a reference lead to its schema, and to nothing else.
* `refersAt_or_silent`: a schema that no reference leads to says no format and is no integer.
* `formats_decided`: so the references decide what a document says for `format`.
-/

namespace InterfaceSchema
namespace Draft

/-- What an element says for `format`. -/
def Element.format? : Element → Option String
  | .byte           => some "byte"
  | .integer format => format
  | .ref _ | .string | .unmapped _ => none

/-- The schema says no format, and is no integer. -/
structure Silent (schema : Json) : Prop where
  format : ∀ x, ¬ HasKeyword schema "format" x
  type : ¬ HasKeyword schema "type" (.str "integer")

theorem Element.hasKeyword_format_iff {e : Element} {x : Json} :
    HasKeyword e.toJson "format" x ↔ ∃ text, e.format? = some text ∧ x = .str text := by
  rw [toJson, hasKeyword_obj_iff]
  cases e <;> simp [members, format?, mem_member?_iff]

theorem Element.hasKeyword_type_str_iff {e : Element} {word : String} :
    HasKeyword e.toJson "type" (.str word) ↔ e.type? = some word := by
  rw [hasKeyword_type_iff]
  simp

/-- A mark on a reference is no type of the draft. -/
theorem mark_ne_integer (name : String) : "_" ++ name ++ "_" ≠ "integer" := by
  intro h
  have hfirst := congrArg (·.toList.head?) h
  simp at hfirst

theorem Element.silent_ref (name : String) : Silent (Element.ref name).toJson where
  format x := by simp [hasKeyword_format_iff, format?]
  type := by simp [hasKeyword_type_str_iff, type?]

theorem Element.silent_string : Silent Element.string.toJson where
  format x := by simp [hasKeyword_format_iff, format?]
  type := by simp [hasKeyword_type_str_iff, type?]

theorem Element.silent_unmapped (name : String) : Silent (Element.unmapped name).toJson where
  format x := by simp [hasKeyword_format_iff, format?]
  type := by simpa [hasKeyword_type_str_iff, type?] using mark_ne_integer name

/-- A property that is an element says what the element says, besides its description. -/
theorem Property.hasKeyword_element_iff {description : Option String} {e : Element}
    {keyword : String} {x : Json} (hkeyword : keyword ≠ "description") :
    HasKeyword (Property.mk description (.element e)).toJson keyword x ↔
      HasKeyword e.toJson keyword x := by
  rw [toJson, Element.toJson, hasKeyword_obj_iff, hasKeyword_obj_iff]
  simp [Content.members, mem_member?_iff, hkeyword]

theorem Property.silent_array (description : Option String) (held : Option Element) :
    Silent (Property.mk description (.array held)).toJson where
  format x := by simp [toJson, Content.members, mem_member?_iff]
  type := by simp [hasKeyword_type_iff, Content.type?]

theorem Property.silent_object (description : Option String) (held : Option Element) :
    Silent (Property.mk description (.object held)).toJson where
  format x := by simp [toJson, Content.members, mem_member?_iff]
  type := by simp [hasKeyword_type_iff, Content.type?]

theorem Definition.not_hasKeyword_format {v : Definition} {x : Json} :
    ¬ HasKeyword v.toJson "format" x := by
  obtain ⟨description, body⟩ := v
  rw [toJson, hasKeyword_obj_iff]
  cases body <;> simp [Body.members, mem_member?_iff]

/-! ### Where keys lead -/

theorem Property.schemaAt_held_iff {p : Property} {key : String} {e : Element}
    (h : p.content.held? = some (key, e)) {part : Json} :
    SchemaAt p.toJson [key] part ↔ part = e.toJson := by
  rw [schemaAt_iff]
  simp [h]

theorem Definition.schemaAt_held_iff {v : Definition} {key : String} {e : Element}
    (h : v.body.held? = some (key, e)) {part : Json} :
    SchemaAt v.toJson [key] part ↔ part = e.toJson := by
  rw [schemaAt_iff]
  simp [h]

theorem Definition.schemaAt_property_iff {v : Definition} {name : String} {p : Property}
    (hnodup : (Entries.names v.body.properties).Nodup) (hp : (name, p) ∈ v.body.properties)
    {path : List String} {part : Json} :
    SchemaAt v.toJson ("properties" :: name :: path) part ↔ SchemaAt p.toJson path part := by
  rw [schemaAt_iff]
  constructor
  · rintro (⟨⟨⟩, -⟩ | ⟨_, _, -, ⟨⟩, -⟩ | ⟨_, q, _, hq, ⟨⟩, hpart⟩)
    obtain rfl : p = q := Entries.eq_of_mem hnodup hp hq
    exact hpart
  · intro hpart
    exact .inr (.inr ⟨name, p, path, hp, rfl, hpart⟩)

end Draft

open Draft (Element Content Property Body Definition SchemaAt HasKeyword Silent)

/-! ### What the schema of a reference says -/

namespace Registry
variable {reg : Registry}

/-- The walk from a name ends at an integer of more than one octet. -/
def ReachesInteger (reg : Registry) (name : String) : Prop :=
  ∃ b : BaseType, b.isWideInteger = true ∧ reg.Reaches name b

/-- What the schema of a reference says of integers and octets. -/
structure Formatted (reg : Registry) (format : IntegerFormat) (reference : String)
    (schema : Json) : Prop where
  integer : HasKeyword schema "type" (.str "integer") ↔ reg.ReachesInteger reference
  octet : HasKeyword schema "type" (.str "string") ∧ HasKeyword schema "format" (.str "byte") ↔
    reg.Reaches reference .int8
  format : ∀ x, HasKeyword schema "format" x ↔
    (reg.Reaches reference .int8 ∧ x = .str "byte") ∨
      (reg.ReachesInteger reference ∧ format = .included ∧ x = .str (Text.lower reference))

theorem ReachesInteger.isWideInteger {name : String} {b : BaseType} (h : reg.ReachesInteger name)
    (hb : reg.Reaches name b) : b.isWideInteger = true := by
  obtain ⟨b', hwide, hb'⟩ := h
  rwa [hb.unique hb']

theorem ReachesInteger.not_reaches_int8 {name : String} (h : reg.ReachesInteger name) :
    ¬ reg.Reaches name .int8 :=
  fun hb => Bool.false_ne_true (h.isWideInteger hb)

/-- References to anything but integers and octets have schemas without a format. -/
theorem formatted_of_silent {format : IntegerFormat} {reference : String} {b : BaseType}
    {schema : Json} (hb : reg.Reaches reference b) (hwide : b.isWideInteger = false)
    (hint8 : b ≠ .int8) (h : Silent schema) : reg.Formatted format reference schema := by
  have hinteger : ¬ reg.ReachesInteger reference := fun hi =>
    Bool.false_ne_true (hwide.symm.trans (hi.isWideInteger hb))
  have hbyte : ¬ reg.Reaches reference .int8 := fun h' => hint8 (hb.unique h')
  exact ⟨iff_of_false h.type hinteger, iff_of_false (fun h' => h.format _ h'.2) hbyte, fun x =>
    iff_of_false (h.format x) (by simp [hinteger, hbyte])⟩

theorem formatted_byte {format : IntegerFormat} {reference : String}
    (hb : reg.Reaches reference .int8) :
    reg.Formatted format reference Element.byte.toJson := by
  have hinteger : ¬ reg.ReachesInteger reference := fun h => h.not_reaches_int8 hb
  refine ⟨?_, ?_, fun x => ?_⟩
  · simp [Element.hasKeyword_type_str_iff, Element.type?, hinteger]
  · simp [Element.hasKeyword_type_str_iff, Element.type?, Element.hasKeyword_format_iff,
      Element.format?, hb]
  · simp [Element.hasKeyword_format_iff, Element.format?, hinteger, hb]

theorem formatted_integer {format : IntegerFormat} {reference : String}
    (h : reg.ReachesInteger reference) :
    reg.Formatted format reference (Element.integer
      (if format = .included then some (Text.lower reference) else none)).toJson := by
  refine ⟨?_, ?_, fun x => ?_⟩
  · simp [Element.hasKeyword_type_str_iff, Element.type?, h]
  · simp [Element.hasKeyword_type_str_iff, Element.type?, h.not_reaches_int8]
  · cases format <;>
      simp [Element.hasKeyword_format_iff, Element.format?, h, h.not_reaches_int8]

/-- What a search comes to for a type on the chain is a reference or the mark on one. -/
theorem silent_of_nearest? {t : TypeDef} {reference : String} {base : BaseType} {e : Element}
    (h : t.nearest? reference base = some e) : Silent e.toJson := by
  rw [TypeDef.nearest?] at h
  cases hform : t.form with
  | struct _ | enum _ | map _ | array _ =>
      simp only [hform] at h
      cases h
      exact Element.silent_ref _
  | text _ | bare =>
      simp only [hform] at h
      split at h
      · cases h
        exact Element.silent_ref _
      · cases h
  | union _ =>
      simp only [hform] at h
      cases h
      exact Element.silent_unmapped _

theorem silent_of_nearestTextAt {t : TypeDef} {e : Element} (h : nearestTextAt t = some e) :
    Silent e.toJson := by
  rw [nearestTextAt] at h
  split at h
  · split at h
    · cases h
      exact Element.silent_ref _
    · cases h
  · cases h

theorem silent_of_nearest {name : String} {b : BaseType} (hb : reg.Reaches name b) {e : Element}
    (h : reg.nearest name = .ok e) : Silent e.toJson := by
  obtain ⟨links, hends⟩ := hb
  rw [nearest_of_ends hends] at h
  rcases eq_of_search (Except.ok.inj h) with rfl | ⟨t, -, hpick⟩
  · exact Element.silent_ref _
  · exact silent_of_nearest? hpick

theorem silent_of_nearestText {name : String} {b : BaseType} (hb : reg.Reaches name b)
    {e : Element} (h : reg.nearestText name = .ok e) : Silent e.toJson := by
  obtain ⟨links, hends⟩ := hb
  rw [nearestText_of_ends hends] at h
  rcases eq_of_search (Except.ok.inj h) with rfl | ⟨t, -, hpick⟩
  · exact Element.silent_string
  · exact silent_of_nearestTextAt hpick

/-- **What a collection holds** says the format of its reference. -/
theorem element_formatted {format : IntegerFormat} {reference : String} {e : Element}
    (h : reg.element format reference = .ok e) : reg.Formatted format reference e.toJson := by
  obtain ⟨b, hb⟩ := exists_element_iff.1 ⟨e, h⟩
  rw [element, baseOf_eq_ok_iff.2 hb] at h
  cases b with
  | string => exact formatted_of_silent hb rfl (by decide) (silent_of_nearestText hb h)
  | int8 =>
      cases h
      exact formatted_byte hb
  | int16 | int32 | int64 =>
      cases h
      exact formatted_integer ⟨_, rfl, hb⟩
  | _ => exact formatted_of_silent hb rfl (by decide) (silent_of_nearest hb h)

theorem Formatted.property {format : IntegerFormat} {reference : String} {e : Element}
    (h : reg.Formatted format reference e.toJson) (description : Option String) :
    reg.Formatted format reference (Property.mk description (.element e)).toJson := by
  have htype : "type" ≠ "description" := by decide
  have hformat : "format" ≠ "description" := by decide
  refine ⟨?_, ?_, fun x => ?_⟩
  · rw [Property.hasKeyword_element_iff htype]
    exact h.integer
  · rw [Property.hasKeyword_element_iff htype, Property.hasKeyword_element_iff hformat]
    exact h.octet
  · rw [Property.hasKeyword_element_iff hformat]
    exact h.format x

/-- **The schema of a field** says the format of its type, where an integer omits it. -/
theorem property_formatted {f : Field} {p : Property} (h : reg.property f = .ok p) :
    reg.Formatted .omitted f.type p.toJson := by
  obtain ⟨b, hb, -⟩ := exists_property_iff.1 ⟨p, h⟩
  obtain ⟨c, hc, rfl⟩ := map_eq_ok_iff.1 h
  rw [content_eq hb] at hc
  cases b with
  | array =>
      obtain ⟨held, -, rfl⟩ := map_eq_ok_iff.1 hc
      exact formatted_of_silent hb rfl (by decide) (Property.silent_array _ held)
  | map =>
      obtain ⟨held, -, rfl⟩ := map_eq_ok_iff.1 hc
      exact formatted_of_silent hb rfl (by decide) (Property.silent_object _ held)
  | string =>
      obtain ⟨e, he, rfl⟩ := map_eq_ok_iff.1 hc
      exact (formatted_of_silent hb rfl (by decide) (silent_of_nearestText hb he)).property _
  | int8 =>
      cases hc
      exact (formatted_byte hb).property _
  | int16 | int32 | int64 =>
      cases hc
      exact (formatted_integer ⟨_, rfl, hb⟩).property _
  | struct | enum =>
      cases hc
      exact (formatted_of_silent hb rfl (by decide) (Element.silent_ref _)).property _
  | _ =>
      cases hc
      exact (formatted_of_silent hb rfl (by decide) (Element.silent_unmapped _)).property _

/-- A collection that says what it holds, says it of its reference. -/
theorem elements_eq_some_iff {format : IntegerFormat} {reference : Option String} {e : Element} :
    reg.elements format reference = .ok (some e) ↔
      ∃ r, reference = some r ∧ r ≠ anyName ∧ reg.element format r = .ok e := by
  cases reference with
  | none => simp [elements]
  | some r =>
      by_cases hany : r = anyName
      · simp [elements, hany]
      · simp [elements, hany, map_eq_ok_iff]

theorem exists_elements_eq_some {format : IntegerFormat} {r : String} {held : Option Element}
    (h : reg.elements format (some r) = .ok held) (hany : r ≠ anyName) :
    ∃ e, held = some e ∧ reg.element format r = .ok e := by
  cases held with
  | none => simp [elements, hany, map_eq_ok_iff] at h
  | some e =>
      obtain ⟨r', hr, -, he⟩ := elements_eq_some_iff.1 h
      obtain rfl := Option.some.inj hr
      exact ⟨e, rfl, he⟩

end Registry

/-! ### References and their places -/

namespace Schema

/-- The field is the last of its name in the struct, whose definition stands. -/
def ShowsIn (s : Schema) (t : TypeDef) (f : Field) : Prop :=
  s.Stands t ∧ ∃ before after, t.form = .struct (before ++ f :: after) ∧
    ∀ g ∈ after, g.name ≠ f.name

/-- The keys lead to the schema of a reference, where integers say their format or omit it. -/
inductive RefersAt (s : Schema) : List String → IntegerFormat → String → Prop where
  | items {t : TypeDef} {r : String} (ht : s.Stands t) (hform : t.form = .array r)
      (hany : r ≠ anyName) : RefersAt s ["definitions", t.name, "items"] .included r
  | additional {t : TypeDef} {r : String} (ht : s.Stands t) (hform : t.form = .map r)
      (hany : r ≠ anyName) : RefersAt s ["definitions", t.name, "additionalProperties"] .included r
  | field {t : TypeDef} {f : Field} (hf : s.ShowsIn t f) :
      RefersAt s ["definitions", t.name, "properties", f.name] .omitted f.type
  | fieldItems {t : TypeDef} {f : Field} {r : String} (hf : s.ShowsIn t f)
      (hb : (Registry.ofSchema s).Reaches f.type .array)
      (hitems : (Registry.ofSchema s).itemsOf? f .array = some r) (hany : r ≠ anyName) :
      RefersAt s ["definitions", t.name, "properties", f.name, "items"] .omitted r
  | fieldAdditional {t : TypeDef} {f : Field} {r : String} (hf : s.ShowsIn t f)
      (hb : (Registry.ofSchema s).Reaches f.type .map)
      (hitems : (Registry.ofSchema s).itemsOf? f .map = some r) (hany : r ≠ anyName) :
      RefersAt s ["definitions", t.name, "properties", f.name, "additionalProperties"] .included r

end Schema

namespace Document
variable {s : Schema} {d : Document}

/-- The name of a type that stands and produces a definition leads to it. -/
theorem exists_schemaAt_iff_of_stands (h : ofSchema s = .ok d) {t : TypeDef} (ht : s.Stands t)
    (hdefines : (Registry.ofSchema s).Defines t) :
    ∃ v : Definition, (Registry.ofSchema s).body t = .ok (some v.body) ∧ ∀ path part,
      SchemaAt d.toJson ("definitions" :: t.name :: path) part ↔ SchemaAt v.toJson path part := by
  obtain ⟨v, hv⟩ := exists_convert_of_defines h ht.mem hdefines
  have hthere : (t.name, v) ∈ d.definitions := (mem_definitions_iff h).2 ⟨t, ht, rfl, hv⟩
  refine ⟨v, body_of_convert hv, fun path part => ?_⟩
  rw [schemaAt_iff]
  constructor
  · rintro (⟨⟨⟩, -⟩ | ⟨_, w, _, hw, ⟨⟩, hpart⟩)
    obtain rfl : v = w := Entries.eq_of_mem (nodup_names_definitions h) hthere hw
    exact hpart
  · intro hpart
    exact .inr ⟨t.name, v, path, hthere, rfl, hpart⟩

/-- The name of a field that stands leads to its property. -/
theorem exists_schemaAt_iff_of_showsIn (h : ofSchema s = .ok d) {t : TypeDef} {f : Field}
    (hf : s.ShowsIn t f) :
    ∃ p, (Registry.ofSchema s).property f = .ok p ∧ ∀ path part,
      SchemaAt d.toJson ("definitions" :: t.name :: "properties" :: f.name :: path) part ↔
        SchemaAt p.toJson path part := by
  obtain ⟨ht, before, after, hform, hafter⟩ := hf
  have hdefines : (Registry.ofSchema s).Defines t := by
    rw [Registry.Defines, hform]
    trivial
  obtain ⟨⟨description, body⟩, hbody, hv⟩ := exists_schemaAt_iff_of_stands h ht hdefines
  obtain ⟨ps, hps, hstruct⟩ := (Registry.body_eq_ok_iff.1 hbody).of_struct hform
  obtain rfl : body = .struct ps _ := Option.some.inj hstruct
  -- every field of a struct that is converted has a property
  have hsound : (Registry.ofSchema s).FieldSound f :=
    Registry.exists_properties_iff.1 ⟨ps, hps⟩ f (by simp)
  obtain ⟨p, hp⟩ := Registry.exists_property_iff.2 hsound
  have hthere : (f.name, p) ∈ ps :=
    (Registry.mem_properties_iff hps).2 ⟨before, f, after, rfl, rfl, hp, hafter⟩
  refine ⟨p, hp, fun path part => ?_⟩
  rw [hv, Definition.schemaAt_property_iff (Registry.nodup_names_properties hps) hthere]

/-- A property of a definition is that of a field that stands. -/
theorem exists_showsIn_of_mem {t : TypeDef} (ht : s.Stands t) {body : Body}
    (h : (Registry.ofSchema s).body t = .ok (some body)) {name : String} {p : Property}
    (hp : (name, p) ∈ body.properties) :
    ∃ f, s.ShowsIn t f ∧ f.name = name ∧ (Registry.ofSchema s).property f = .ok p := by
  cases Registry.body_eq_ok_iff.1 h with
  | struct hform hps =>
      obtain ⟨before, f, after, rfl, rfl, hproperty, hafter⟩ :=
        (Registry.mem_properties_iff hps).1 hp
      exact ⟨f, ⟨ht, before, after, hform, hafter⟩, rfl, hproperty⟩
  | array | map | enum | text | structAlias => cases hp

/-- **The keys of a reference lead to its schema**, and to nothing else. -/
theorem schemaAt_of_refersAt (h : ofSchema s = .ok d) {path : List String}
    {format : IntegerFormat} {r : String} (hr : s.RefersAt path format r) :
    ∃ schema, (Registry.ofSchema s).Formatted format r schema ∧
      ∀ part, SchemaAt d.toJson path part ↔ part = schema := by
  cases hr with
  | @items t r ht hform hany =>
      obtain ⟨v, hbody, hv⟩ := exists_schemaAt_iff_of_stands h ht (by
        rw [Registry.Defines, hform]
        trivial)
      obtain ⟨b, held, hheld, hv'⟩ := (Registry.body_eq_ok_iff.1 hbody).of_array hform
      obtain ⟨e, rfl, he⟩ := Registry.exists_elements_eq_some hheld hany
      refine ⟨e.toJson, Registry.element_formatted he, fun part => ?_⟩
      rw [hv, Definition.schemaAt_held_iff (by rw [Option.some.inj hv']; rfl)]
  | @additional t r ht hform hany =>
      obtain ⟨v, hbody, hv⟩ := exists_schemaAt_iff_of_stands h ht (by
        rw [Registry.Defines, hform]
        trivial)
      obtain ⟨held, hheld, hv'⟩ := (Registry.body_eq_ok_iff.1 hbody).of_map hform
      obtain ⟨e, rfl, he⟩ := Registry.exists_elements_eq_some hheld hany
      refine ⟨e.toJson, Registry.element_formatted he, fun part => ?_⟩
      rw [hv, Definition.schemaAt_held_iff (by rw [Option.some.inj hv']; rfl)]
  | @field t f hf =>
      obtain ⟨p, hp, hpart⟩ := exists_schemaAt_iff_of_showsIn h hf
      refine ⟨p.toJson, Registry.property_formatted hp, fun part => ?_⟩
      rw [hpart, Draft.Property.schemaAt_iff]
      simp
  | @fieldItems t f r hf hb hitems hany =>
      obtain ⟨p, hp, hpart⟩ := exists_schemaAt_iff_of_showsIn h hf
      obtain ⟨c, hc, rfl⟩ := map_eq_ok_iff.1 hp
      obtain ⟨held, hheld, rfl⟩ := map_eq_ok_iff.1 ((Registry.content_eq hb).symm.trans hc)
      rw [hitems] at hheld
      obtain ⟨e, rfl, he⟩ := Registry.exists_elements_eq_some hheld hany
      refine ⟨e.toJson, Registry.element_formatted he, fun part => ?_⟩
      rw [hpart, Draft.Property.schemaAt_held_iff rfl]
  | @fieldAdditional t f r hf hb hitems hany =>
      obtain ⟨p, hp, hpart⟩ := exists_schemaAt_iff_of_showsIn h hf
      obtain ⟨c, hc, rfl⟩ := map_eq_ok_iff.1 hp
      obtain ⟨held, hheld, rfl⟩ := map_eq_ok_iff.1 ((Registry.content_eq hb).symm.trans hc)
      rw [hitems] at hheld
      obtain ⟨e, rfl, he⟩ := Registry.exists_elements_eq_some hheld hany
      refine ⟨e.toJson, Registry.element_formatted he, fun part => ?_⟩
      rw [hpart, Draft.Property.schemaAt_held_iff rfl]

theorem silent_document (d : Document) : Silent d.toJson where
  format x := by
    rw [toJson_eq, Draft.hasKeyword_obj_iff]
    by_cases hnil : d.definitions = [] <;> simp [hnil]
  type := not_hasKeyword_type

/-- No definition is an integer: what one of an array says is the small name of a base type. -/
theorem silent_definition {reg : Registry} {t : TypeDef} {v : Definition}
    (h : reg.body t = .ok (some v.body)) : Silent v.toJson where
  format _ := Definition.not_hasKeyword_format
  type := by
    rw [Draft.Definition.hasKeyword_type_iff]
    rintro ⟨word, hword, ⟨⟩⟩
    generalize v.body = body at h hword
    cases Registry.body_eq_ok_iff.1 h with
    | @array _ b _ _ _ _ =>
        exact b.lower_name_ne_integer (Option.some.inj hword)
    | struct | enum | map | text | structAlias => simp [Body.type?] at hword

/-- What a declared collection holds is what a reference leads to. -/
theorem exists_refersAt_of_held {t : TypeDef} (ht : s.Stands t) {body : Body}
    (h : (Registry.ofSchema s).body t = .ok (some body)) {key : String} {e : Element}
    (he : body.held? = some (key, e)) :
    ∃ format r, s.RefersAt ["definitions", t.name, key] format r := by
  cases Registry.body_eq_ok_iff.1 h with
  | struct | enum | text | structAlias => cases he
  | array hform _ hheld =>
      obtain ⟨e', rfl, hpair⟩ := Option.map_eq_some_iff.1 he
      obtain ⟨r, hr, hany, -⟩ := Registry.elements_eq_some_iff.1 hheld
      cases hpair
      cases hr
      exact ⟨_, _, .items ht hform hany⟩
  | map hform hheld =>
      obtain ⟨e', rfl, hpair⟩ := Option.map_eq_some_iff.1 he
      obtain ⟨r, hr, hany, -⟩ := Registry.elements_eq_some_iff.1 hheld
      cases hpair
      cases hr
      exact ⟨_, _, .additional ht hform hany⟩

/-- What a collection in a field holds is what a reference leads to. -/
theorem exists_refersAt_of_property {t : TypeDef} {f : Field} (hf : s.ShowsIn t f) {p : Property}
    (h : (Registry.ofSchema s).property f = .ok p) {key : String} {e : Element}
    (he : p.content.held? = some (key, e)) :
    ∃ format r, s.RefersAt ["definitions", t.name, "properties", f.name, key] format r := by
  obtain ⟨b, hb, -⟩ := Registry.exists_property_iff.1 ⟨p, h⟩
  obtain ⟨c, hc, rfl⟩ := map_eq_ok_iff.1 h
  rw [Registry.content_eq hb] at hc
  cases b with
  | array =>
      obtain ⟨held, hheld, rfl⟩ := map_eq_ok_iff.1 hc
      obtain ⟨e', rfl, hpair⟩ := Option.map_eq_some_iff.1 he
      obtain ⟨r, hitems, hany, -⟩ := Registry.elements_eq_some_iff.1 hheld
      cases hpair
      exact ⟨_, _, .fieldItems hf hb hitems hany⟩
  | map =>
      obtain ⟨held, hheld, rfl⟩ := map_eq_ok_iff.1 hc
      obtain ⟨e', rfl, hpair⟩ := Option.map_eq_some_iff.1 he
      obtain ⟨r, hitems, hany, -⟩ := Registry.elements_eq_some_iff.1 hheld
      cases hpair
      exact ⟨_, _, .fieldAdditional hf hb hitems hany⟩
  | string =>
      obtain ⟨e', -, rfl⟩ := map_eq_ok_iff.1 hc
      cases he
  | _ =>
      cases hc
      cases he

/-- **A schema that no reference leads to** says no format, and is no integer. -/
theorem refersAt_or_silent (h : ofSchema s = .ok d) {path : List String} {part : Json}
    (hpart : SchemaAt d.toJson path part) :
    (∃ format r, s.RefersAt path format r) ∨ Silent part := by
  rcases schemaAt_iff.1 hpart with ⟨-, rfl⟩ | ⟨name, v, rest, hv, rfl, hwithin⟩
  · exact .inr (silent_document d)
  · obtain ⟨t, hstands, rfl, hconvert⟩ := (mem_definitions_iff h).1 hv
    have hbody := body_of_convert hconvert
    rcases Draft.Definition.schemaAt_iff.1 hwithin with
      ⟨rfl, rfl⟩ | ⟨key, e, he, rfl, rfl⟩ | ⟨name, p, rest, hp, rfl, hinner⟩
    · exact .inr (silent_definition hbody)
    · exact .inl (exists_refersAt_of_held hstands hbody he)
    · obtain ⟨f, hf, rfl, hproperty⟩ := exists_showsIn_of_mem hstands hbody hp
      rcases Draft.Property.schemaAt_iff.1 hinner with ⟨rfl, -⟩ | ⟨key, e, he, rfl, -⟩
      · exact .inl ⟨_, _, .field hf⟩
      · exact .inl (exists_refersAt_of_property hf hproperty he)

/-- What a document says for `format`, by the references of its schema. -/
structure FormatsOf (s : Schema) (document : Json) : Prop where
  /-- Every reference has one schema: an integer where it comes down to one, and a string with the
  format `byte` exactly where it comes down to octets. -/
  reference {path : List String} {format : IntegerFormat} {r : String} :
    s.RefersAt path format r → ∃ schema,
      (∀ part, SchemaAt document path part ↔ part = schema) ∧
        (HasKeyword schema "type" (.str "integer") ↔ (Registry.ofSchema s).ReachesInteger r) ∧
        ((HasKeyword schema "type" (.str "string") ∧ HasKeyword schema "format" (.str "byte")) ↔
          (Registry.ofSchema s).Reaches r .int8)
  /-- An integer says a format where a declared collection holds it, or the map of a field, and
  this is the reference there in small letters. -/
  integer {path : List String} {part : Json} :
    SchemaAt document path part → HasKeyword part "type" (.str "integer") →
      ∀ x, HasKeyword part "format" x ↔
        ∃ r, s.RefersAt path .included r ∧ x = .str (Text.lower r)
  /-- An integer that is a field, or that the array of a field holds, says none. -/
  omitted {path : List String} {part : Json} {r : String} :
    SchemaAt document path part → HasKeyword part "type" (.str "integer") →
      s.RefersAt path .omitted r → ∀ x, ¬ HasKeyword part "format" x
  /-- Every other format is `byte`, of the string for a reference that comes down to octets. -/
  byte {path : List String} {part x : Json} :
    SchemaAt document path part → HasKeyword part "format" x →
      ¬ HasKeyword part "type" (.str "integer") →
        x = .str "byte" ∧ HasKeyword part "type" (.str "string") ∧
          ∃ format r, s.RefersAt path format r ∧ (Registry.ofSchema s).Reaches r .int8

/-- A schema in a document is that of a reference, and says what this has it say, or is silent. -/
theorem exists_formatted_or_silent (h : ofSchema s = .ok d) {path : List String} {part : Json}
    (hpart : SchemaAt d.toJson path part) :
    (∃ format r, s.RefersAt path format r ∧ (Registry.ofSchema s).Formatted format r part) ∨
      Silent part := by
  refine (refersAt_or_silent h hpart).imp_left ?_
  rintro ⟨format, r, hr⟩
  obtain ⟨schema, hformatted, hunique⟩ := schemaAt_of_refersAt h hr
  obtain rfl := (hunique part).1 hpart
  exact ⟨format, r, hr, hformatted⟩

/-- What stands where a reference leads says what the reference has it say. -/
theorem formatted_of_refersAt (h : ofSchema s = .ok d) {path : List String} {part : Json}
    (hpart : SchemaAt d.toJson path part) {format : IntegerFormat} {r : String}
    (hr : s.RefersAt path format r) : (Registry.ofSchema s).Formatted format r part := by
  obtain ⟨schema, hformatted, hunique⟩ := schemaAt_of_refersAt h hr
  rwa [(hunique part).1 hpart]

/-- **The references of a schema decide what its document says for `format`.** -/
theorem formats_decided (h : ofSchema s = .ok d) : FormatsOf s d.toJson where
  reference hr := by
    obtain ⟨schema, hformatted, hunique⟩ := schemaAt_of_refersAt h hr
    exact ⟨schema, hunique, hformatted.integer, hformatted.octet⟩
  integer hpart hinteger x := by
    constructor
    · intro hx
      rcases exists_formatted_or_silent h hpart with ⟨format, r, hr, hformatted⟩ | hsilent
      · have hreaches := hformatted.integer.1 hinteger
        rcases (hformatted.format x).1 hx with ⟨hb, -⟩ | ⟨-, rfl, hlower⟩
        · exact absurd hb hreaches.not_reaches_int8
        · exact ⟨r, hr, hlower⟩
      · exact absurd hx (hsilent.format x)
    · rintro ⟨r, hr, rfl⟩
      have hformatted := formatted_of_refersAt h hpart hr
      exact (hformatted.format _).2 (.inr ⟨hformatted.integer.1 hinteger, rfl, rfl⟩)
  omitted hpart hinteger hr x hx := by
    have hformatted := formatted_of_refersAt h hpart hr
    rcases (hformatted.format x).1 hx with ⟨hb, -⟩ | ⟨-, hincluded, -⟩
    · exact (hformatted.integer.1 hinteger).not_reaches_int8 hb
    · cases hincluded
  byte hpart hx hinteger := by
    rcases exists_formatted_or_silent h hpart with ⟨format, r, hr, hformatted⟩ | hsilent
    · rcases (hformatted.format _).1 hx with ⟨hb, hbyte⟩ | ⟨hreaches, -, -⟩
      · exact ⟨hbyte, (hformatted.octet.2 hb).1, format, r, hr, hb⟩
      · exact absurd (hformatted.integer.2 hreaches) hinteger
    · exact absurd hx (hsilent.format _)

/-- An alias of an integer in a list, in the array that a field takes from that list, in the map of
a field, and as a field, beside octets. -/
theorem formats_decided_ages :
    let s : Schema := ⟨"Ages", [⟨"S", "Struct", none, .struct [
        ⟨"format", "Ages", false, none, none⟩, ⟨"m", "Map", false, some "Age", none⟩,
        ⟨"age", "Age", true, none, some "In years."⟩, ⟨"b", "Array", false, some "Int8", none⟩]⟩,
      ⟨"Age", "Int32", none, .bare⟩, ⟨"Ages", "Array", none, .array "Age"⟩]⟩
    ∃ d, ofSchema s = .ok d ∧ FormatsOf s d.toJson ∧
      ∃ schema, SchemaAt d.toJson ["definitions", "Ages", "items"] schema ∧
        HasKeyword schema "format" (.str (Text.lower "Age")) := by
  intro s
  obtain ⟨d, h⟩ : ∃ d, ofSchema s = .ok d := ⟨_, rfl⟩
  have hformats := formats_decided h
  refine ⟨d, h, hformats, ?_⟩
  -- the reference in the list comes down to an integer
  have hr : s.RefersAt ["definitions", "Ages", "items"] .included "Age" :=
    .items (t := ⟨"Ages", "Array", none, .array "Age"⟩) ⟨[_, _], [], rfl, by simp⟩ rfl (by decide)
  have hreaches : (Registry.ofSchema s).ReachesInteger "Age" :=
    ⟨.int32, rfl, Registry.baseOf_eq_ok_iff.1 rfl⟩
  obtain ⟨schema, hunique, hinteger, -⟩ := hformats.reference hr
  have hpart := (hunique schema).2 rfl
  exact ⟨schema, hpart, (hformats.integer hpart (hinteger.2 hreaches) _).2 ⟨"Age", hr, rfl⟩⟩

end Document
end InterfaceSchema
