import InterfaceSchema.Proofs.Decoration
import InterfaceSchema.Proofs.Formats

/-!
# Collections written out where they are used

A field whose type is declared as a collection says itself what the collection holds, unless it has
items of its own.  It says what the definition of its type says, but for one thing: what a list
holds omits the format of integers in a field, and includes it in the definition.

* `element_omitted`: to omit formats is to take them out of what is said with them.
* `define_of_map`, `define_of_array`: the definition of a collection is what it holds.
* `inlined_as_defined`: a field and the definition of its type compared.
-/

namespace InterfaceSchema

open Draft (Element Content Property Body Definition HasKeyword)

/-! ### Integers without their format -/

/-- An integer without its format, and any other element. -/
def Draft.Element.withoutFormat : Element → Element
  | .integer _ => .integer none
  | e => e

/-- The schema says a word for a keyword. -/
def Json.saysWord (keyword word : String) : Json → Bool
  | .obj ms => ms.any fun
    | (key, .str text) => key == keyword && text == word
    | _ => false
  | _ => false

/-- An integer without its format, and any other schema. -/
def Json.withoutIntegerFormat (v : Json) : Json :=
  if v.saysWord "type" "integer" then v.without "format" else v

theorem Draft.Element.toJson_withoutFormat (e : Element) :
    e.withoutFormat.toJson = e.toJson.withoutIntegerFormat := by
  cases e with
  | ref name | string | byte => rfl
  | integer format => cases format <;> rfl
  | unmapped name =>
      have hmark : (Element.unmapped name).toJson.saysWord "type" "integer" = false := by
        simpa [toJson, members, Json.saysWord] using mark_ne_integer name
      simp [withoutFormat, Json.withoutIntegerFormat, hmark]

namespace Registry
variable {reg : Registry}

theorem withoutFormat_of_nearest? {t : TypeDef} {reference : String} {base : BaseType}
    {e : Element} (h : t.nearest? reference base = some e) : e.withoutFormat = e := by
  rw [TypeDef.nearest?] at h
  cases hform : t.form with
  | struct _ | enum _ | map _ | array _ | union _ =>
      simp only [hform] at h
      cases h
      rfl
  | text _ | bare =>
      simp only [hform] at h
      split at h
      · cases h
        rfl
      · cases h

theorem withoutFormat_of_nearestTextAt {t : TypeDef} {e : Element}
    (h : nearestTextAt t = some e) : e.withoutFormat = e := by
  rw [nearestTextAt] at h
  split at h
  · split at h
    · cases h
      rfl
    · cases h
  · cases h

/-- Searches do not come to integers. -/
theorem withoutFormat_of_search {links : List TypeDef} {pick : TypeDef → Option Element}
    {top : Element} (htop : top.withoutFormat = top)
    (hpick : ∀ t e, pick t = some e → e.withoutFormat = e) :
    ((links.findSome? pick).getD top).withoutFormat = (links.findSome? pick).getD top := by
  rcases eq_of_search (e := (links.findSome? pick).getD top) rfl with heq | ⟨t, -, ht⟩
  · rw [heq, htop]
  · exact hpick t _ ht

/-- **To omit formats is to take them out of what is said with them.** -/
theorem element_omitted (reg : Registry) (reference : String) :
    reg.element .omitted reference =
      (reg.element .included reference).map Element.withoutFormat := by
  rw [element, element]
  cases hb : reg.baseOf reference with
  | error e => rfl
  | ok base =>
      obtain ⟨links, hends⟩ := baseOf_eq_ok_iff.1 hb
      have hnearest : reg.nearest reference =
          (reg.nearest reference).map Element.withoutFormat := by
        rw [nearest_of_ends hends, Except.map,
          withoutFormat_of_search rfl fun _ _ => withoutFormat_of_nearest?]
      have htext : reg.nearestText reference =
          (reg.nearestText reference).map Element.withoutFormat := by
        rw [nearestText_of_ends hends, Except.map,
          withoutFormat_of_search rfl fun _ _ => withoutFormat_of_nearestTextAt]
      cases base with
      | string => exact htext
      | int8 | int16 | int32 | int64 => rfl
      | _ => exact hnearest

theorem elements_omitted (reg : Registry) (reference : Option String) :
    reg.elements .omitted reference =
      (reg.elements .included reference).map (Option.map Element.withoutFormat) := by
  cases reference with
  | none => rfl
  | some r =>
      rw [elements, elements]
      by_cases hany : r = anyName
      · simp only [hany, if_true]
        rfl
      · simp only [hany, if_false, element_omitted]
        cases reg.element .included r <;> rfl

/-! ### Definitions of collections -/

theorem define_of_map {t : TypeDef} {items : String} (hform : t.form = .map items) :
    reg.define (.declared t) = ((reg.elements .included (some items)).mapError .lookup).map
      fun held => some ⟨nonEmpty? t.comment, .object held⟩ := by
  rw [define_declared_eq, body, hform]
  cases hheld : reg.elements .included (some items) <;> simp only [hheld] <;> rfl

theorem define_of_array {t : TypeDef} {items : String} {b : BaseType}
    (hform : t.form = .array items) (hb : reg.Reaches t.supertype b) :
    reg.define (.declared t) = ((reg.elements .included (some items)).mapError .lookup).map
      fun held => some ⟨nonEmpty? t.comment, .array (Text.lower b.name) held⟩ := by
  rw [define_declared_eq, body, hform]
  cases hheld : reg.elements .included (some items) <;>
    simp only [baseOf_eq_ok_iff.2 hb, hheld] <;> rfl

/-- A field without items of its own holds what its type is declared to hold. -/
theorem itemsOf?_of_find {f : Field} {t : TypeDef} {b : BaseType} {items : String}
    (hown : nonEmpty? f.items = none) (ht : reg.find f.type = .ok (.declared t))
    (hb : b = .array ∨ b = .map) (hitems : t.itemsAs? b = some items) :
    reg.itemsOf? f b = some items := by
  have hdeclared : reg.declaredItems? f.type b = some items := by
    rw [declaredItems?, ht]
    exact hitems
  rcases hb with rfl | rfl <;> simp [itemsOf?, hown, hdeclared]

/-! ### In JSON -/

/-- What a property says besides its description is its content. -/
theorem without_description_property (p : Property) :
    p.toJson.without "description" = .obj p.content.members := by
  rw [← Property.toJson_undecorate]
  rfl

/-- What the definition of a collection says besides its description is its body. -/
theorem without_description_array (description : Option String) (type : String)
    (held : Option Element) :
    (Definition.mk description (.array type held)).toJson.without "description" =
      .obj (Body.array type held).members := by
  cases description <;> cases held <;> rfl

theorem without_description_object (description : Option String) (held : Option Element) :
    (Definition.mk description (.object held)).toJson.without "description" =
      .obj (Content.object held).members := by
  cases description <;> cases held <;> rfl

/-- A list whose integers omit their format. -/
theorem mapAt_items_array (held : Option Element) :
    (Json.obj (Body.array "array" held).members).mapAt "items" Json.withoutIntegerFormat =
      .obj (Content.array (held.map Element.withoutFormat)).members := by
  cases held with
  | none => rfl
  | some e =>
      rw [Option.map_some, Content.members, Draft.member?, Option.map_some,
        Element.toJson_withoutFormat]
      rfl

/-- An integer says the format of its reference where formats are included. -/
theorem Formatted.includes {reference : String} {v : Json}
    (h : reg.Formatted .included reference v) (hinteger : HasKeyword v "type" (.str "integer")) :
    HasKeyword v "format" (.str (Text.lower reference)) :=
  (h.format _).2 (.inr ⟨h.integer.1 hinteger, rfl, rfl⟩)

/-- It says none where they are omitted. -/
theorem Formatted.omits {reference : String} {v : Json}
    (h : reg.Formatted .omitted reference v) (hinteger : HasKeyword v "type" (.str "integer"))
    (x : Json) : ¬ HasKeyword v "format" x := by
  intro hx
  rcases (h.format x).1 hx with ⟨hbyte, -⟩ | ⟨-, hincluded, -⟩
  · exact (h.integer.1 hinteger).not_reaches_int8 hbyte
  · cases hincluded

/-- The items of a list, in its definition and in a field, are what an element comes to. -/
theorem formatted_items {format : IntegerFormat} {items : String} {held : Option Element}
    (hheld : reg.elements format (some items) = .ok held) {v : Json}
    (hv : HasKeyword (.obj (Content.array held).members) "items" v) :
    reg.Formatted format items v := by
  obtain ⟨e, rfl, rfl⟩ : ∃ e, held = some e ∧ v = e.toJson := by
    simpa [Content.members, Draft.mem_member?_iff] using hv
  obtain ⟨_, hr, -, he⟩ := elements_eq_some_iff.1 hheld
  cases hr
  exact element_formatted he

/-! ### Fields of collection types -/

/-- **A field of a collection type says what the definition of its type says**, and fails as it
does, if it has no items of its own.  Only the format of integers, which the definition of a list
includes, is omitted in the field. -/
theorem inlined_as_defined (reg : Registry) {f : Field} {t : TypeDef} {items : String}
    (hown : nonEmpty? f.items = none) (ht : reg.find f.type = .ok (.declared t)) :
    let inlined := (reg.property f).map fun p => p.toJson.without "description"
    let defined := (reg.define (.declared t)).map (Option.map fun v =>
      v.toJson.without "description")
    (t.form = .map items → reg.Reaches f.type .map →
      (inlined.mapError .lookup).map some = defined) ∧
    (t.form = .array items → reg.Reaches f.type .array →
      (inlined.mapError .lookup).map some =
        defined.map (Option.map (Json.mapAt "items" Json.withoutIntegerFormat)) ∧
      (∀ v held, defined = .ok (some v) → HasKeyword v "items" held →
        HasKeyword held "type" (.str "integer") →
          HasKeyword held "format" (.str (Text.lower items))) ∧
      ∀ v held, inlined = .ok v → HasKeyword v "items" held →
        HasKeyword held "type" (.str "integer") → ∀ x, ¬ HasKeyword held "format" x) := by
  intro inlined defined
  constructor
  · intro hform hb
    have hitems : reg.itemsOf? f .map = some items :=
      itemsOf?_of_find hown ht (.inr rfl) (by simp [TypeDef.itemsAs?, hform])
    simp only [inlined, defined, define_of_map hform, property, content_eq hb, hitems]
    cases reg.elements .included (some items) with
    | error e => rfl
    | ok held =>
        simp only [Except.map, Except.mapError, Option.map_some, without_description_property,
          without_description_object]
  · intro hform hb
    have hitems : reg.itemsOf? f .array = some items :=
      itemsOf?_of_find hown ht (.inl rfl) (by simp [TypeDef.itemsAs?, hform])
    obtain ⟨links, hends⟩ := hb
    obtain ⟨later, rfl, hup⟩ := hends.of_find ht
    have hlower : Text.lower BaseType.array.name = "array" :=
      BaseType.lower_name_eq_array_iff.2 rfl
    have homitted := elements_omitted reg (some items)
    simp only [inlined, defined, define_of_array hform ⟨later, hup⟩, property,
      content_eq ⟨_, hends⟩, hitems, homitted, hlower]
    cases hheld : reg.elements .included (some items) with
    | error e =>
        refine ⟨rfl, ?_, ?_⟩
        · intro v held h
          cases h
        · intro v held h
          cases h
    | ok held =>
        rw [hheld] at homitted
        simp only [Except.map, Except.mapError, Option.map_some, without_description_property,
          without_description_array, mapAt_items_array, Except.ok.injEq, Option.some.injEq]
        refine ⟨trivial, ?_, ?_⟩
        · rintro _ v rfl hv hinteger
          exact (formatted_items hheld hv).includes hinteger
        · rintro _ v rfl hv hinteger
          exact (formatted_items homitted hv).omits hinteger

/-- A list and a map of a named integer, and fields of both with empty items of their own. -/
theorem inlined_as_defined_ages :
    let ages : TypeDef := ⟨"Ages", "Array", some "In years.", .array "Age"⟩
    let byName : TypeDef := ⟨"ByName", "Map", none, .map "Age"⟩
    let reg : Registry := ⟨[⟨"Age", "Int32", none, .bare⟩, ages, byName]⟩
    let inlined (type : String) := (reg.property ⟨"f", type, false, some "", some "A field."⟩).map
      fun p => p.toJson.without "description"
    let defined (t : TypeDef) := (reg.define (.declared t)).map (Option.map fun v =>
      v.toJson.without "description")
    nonEmpty? (some "") = none ∧
      reg.find "ByName" = .ok (.declared byName) ∧ reg.Reaches "ByName" .map ∧
      ((inlined "ByName").mapError .lookup).map some = defined byName ∧
      reg.find "Ages" = .ok (.declared ages) ∧ reg.Reaches "Ages" .array ∧
      ((inlined "Ages").mapError .lookup).map some =
        (defined ages).map (Option.map (Json.mapAt "items" Json.withoutIntegerFormat)) ∧
      ∃ v held, defined ages = .ok (some v) ∧ HasKeyword v "items" held ∧
        HasKeyword held "format" (.str (Text.lower "Age")) := by
  intro ages byName reg inlined defined
  have hmap : reg.Reaches "ByName" .map := baseOf_eq_ok_iff.1 rfl
  have harray : reg.Reaches "Ages" .array := baseOf_eq_ok_iff.1 rfl
  have hown : nonEmpty? (some "") = none := rfl
  obtain ⟨hequal, hincluded, -⟩ := (inlined_as_defined reg
    (f := ⟨"f", "Ages", false, some "", some "A field."⟩) hown rfl).2 rfl harray
  refine ⟨hown, rfl, hmap, (inlined_as_defined reg
    (f := ⟨"f", "ByName", false, some "", some "A field."⟩) hown rfl).1 rfl hmap, rfl, harray,
    hequal, ?_⟩
  obtain ⟨v, held, hv, hheld, hinteger⟩ : ∃ v held, defined ages = .ok (some v) ∧
      HasKeyword v "items" held ∧ HasKeyword held "type" (.str "integer") :=
    ⟨_, _, rfl, ⟨_, rfl, .tail _ (.head _)⟩, ⟨_, rfl, .head _⟩⟩
  exact ⟨v, held, hv, hheld, hincluded v held hv hheld hinteger⟩

end Registry
end InterfaceSchema
