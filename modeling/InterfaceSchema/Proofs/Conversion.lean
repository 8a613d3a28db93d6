import InterfaceSchema.Conversion
import InterfaceSchema.Proofs.Chains
import InterfaceSchema.Proofs.Results

/-!
# The conversion of one type

When a declared type can be converted, why not, and whether it then produces a definition, said
by the walks from the names that it refers to.

* `exists_element_iff`: the walk to the base type of an element decides whether it has a schema;
  the searches that follow cannot fail.
* `body_eq_ok_iff`: all that the body of a definition can be, by the form of the type.
* `exists_define_iff`: a type can be converted exactly when it is `Sound`.
* `define_eq_error_iff`: otherwise it fails for the first reason there is (`TypeFails`); a struct
  fails as its first field that fails.
* `isSome_iff_defines`: a type that can be converted produces a definition exactly when it
  `Defines` one.
-/

namespace InterfaceSchema

open Draft (Element Content Property Body Definition)

/-- What a type on a chain that ends at `base` does for a reference that looks for a definition. -/
def TypeDef.nearest? (t : TypeDef) (reference : String) (base : BaseType) : Option Element :=
  match t.form with
  | .struct _ | .enum _ | .map _ | .array _ => some (.ref t.name)
  | .text c  => if c.any then some (.ref t.name) else none
  | .union _ => some (.unmapped reference)
  | .bare    => if base = .struct then some (.ref t.name) else none

namespace Registry
variable {reg : Registry}

/-! ### Sound types -/

/-- A collection may hold anything at all, or what comes down to a built-in type. -/
def ElementSound (reg : Registry) (items : String) : Prop :=
  items = anyName ∨ ∃ b, reg.Reaches items b

/-- What a type declared under a name holds as a collection of the kind `base`. -/
def declaredItems? (reg : Registry) (name : String) (base : BaseType) : Option String :=
  match reg.find name with
  | .ok (.declared t) => t.itemsAs? base
  | _ => none

/-- The element reference that counts for a field whose type comes down to `base`: its own, or
that of its type, if this is declared as such a collection. -/
def itemsOf? (reg : Registry) (f : Field) (base : BaseType) : Option String :=
  match base with
  | .array | .map => (nonEmpty? f.items).or (reg.declaredItems? f.type base)
  | _ => none

/-- The type of the field comes down to a built-in type, and so does what it holds. -/
def FieldSound (reg : Registry) (f : Field) : Prop :=
  ∃ b, reg.Reaches f.type b ∧ ∀ items, reg.itemsOf? f b = some items → reg.ElementSound items

/-- All that the type refers to comes down to built-in types, as far as its form asks for it. -/
def Sound (reg : Registry) (t : TypeDef) : Prop :=
  match t.form with
  | .struct fields => ∀ f ∈ fields, reg.FieldSound f
  | .array items   => (∃ b, reg.Reaches t.supertype b) ∧ reg.ElementSound items
  | .map items     => reg.ElementSound items
  | .bare          =>
    ∃ b, reg.Reaches t.supertype b ∧ (b.isNumeric = true ∨ b = .string ∨ b = .struct)
  | .enum _ | .text _ | .union _ => True

/-- Why a field cannot be converted: for its type, or, if that is sound, for what it holds. -/
inductive FieldFails (reg : Registry) (f : Field) : LookupError → Prop where
  | type {e : LookupError} (h : reg.Fails f.type e) : FieldFails reg f e
  | items {b : BaseType} {items : String} {e : LookupError} (hb : reg.Reaches f.type b)
      (hitems : reg.itemsOf? f b = some items) (hany : items ≠ anyName)
      (h : reg.Fails items e) : FieldFails reg f e

/-- Why a type cannot be converted. -/
inductive TypeFails (reg : Registry) (t : TypeDef) : ConversionError → Prop where
  | field {before after : List Field} {f : Field} {e : LookupError}
      (hform : t.form = .struct (before ++ f :: after))
      (hbefore : ∀ g ∈ before, reg.FieldSound g) (h : reg.FieldFails f e) :
      TypeFails reg t (.lookup e)
  | arraySupertype {items : String} {e : LookupError} (hform : t.form = .array items)
      (h : reg.Fails t.supertype e) : TypeFails reg t (.lookup e)
  | arrayItems {items : String} {b : BaseType} {e : LookupError} (hform : t.form = .array items)
      (hb : reg.Reaches t.supertype b) (hany : items ≠ anyName) (h : reg.Fails items e) :
      TypeFails reg t (.lookup e)
  | mapItems {items : String} {e : LookupError} (hform : t.form = .map items)
      (hany : items ≠ anyName) (h : reg.Fails items e) : TypeFails reg t (.lookup e)
  | aliasSupertype {e : LookupError} (hform : t.form = .bare) (h : reg.Fails t.supertype e) :
      TypeFails reg t (.lookup e)
  | aliasBase {b : BaseType} (hform : t.form = .bare) (hb : reg.Reaches t.supertype b)
      (hnumeric : b.isNumeric = false) (hstring : b ≠ .string) (hstruct : b ≠ .struct) :
      TypeFails reg t (.unsupported t.name b)

/-- The type is of a form that produces a definition. -/
def Defines (reg : Registry) (t : TypeDef) : Prop :=
  match t.form with
  | .struct _ | .enum _ | .map _ | .array _ => True
  | .text c  => c.any = true
  | .union _ => False
  | .bare    => reg.Reaches t.supertype .struct

/-! ### Searches of a chain -/

/-- On a chain that comes down to a built-in type, no type stops a search with an error. -/
theorem nearestAt_of_ends {reference name : String} {links : List TypeDef} {base : BaseType}
    (h : reg.Ends name links (.ok base)) {t : TypeDef} (ht : t ∈ links) :
    reg.nearestAt reference t = .ok (t.nearest? reference base) := by
  rw [nearestAt, TypeDef.nearest?]
  cases hform : t.form with
  | bare =>
      obtain ⟨after, hafter, -⟩ := h.from ht
      cases hafter with
      | declared _ up => simp only [baseOf_of_ends up, Except.map]
  | _ => rfl

/-- **On a chain that ends well the search for a definition succeeds**: at the first type that
does something for the reference, or at the end. -/
theorem nearest_of_ends {name : String} {links : List TypeDef} {base : BaseType}
    (h : reg.Ends name links (.ok base)) :
    reg.nearest name =
      .ok ((links.findSome? (·.nearest? name base)).getD (.ref base.name)) := by
  rw [nearest, climb_of_ends h fun t ht => nearestAt_of_ends h ht]
  cases links.findSome? (·.nearest? name base) <;> rfl

theorem nearestText_of_ends {name : String} {links : List TypeDef} {base : BaseType}
    (h : reg.Ends name links (.ok base)) :
    reg.nearestText name = .ok ((links.findSome? nearestTextAt).getD .string) := by
  rw [nearestText, climb_of_ends h fun _ _ => rfl]
  cases links.findSome? nearestTextAt <;> rfl

/-! ### Elements -/

/-- **An element has a schema exactly when it comes down to a built-in type.**  The first walk
decides; the searches after it cannot fail. -/
theorem exists_element_iff {format : IntegerFormat} {items : String} :
    (∃ e, reg.element format items = .ok e) ↔ ∃ b, reg.Reaches items b := by
  constructor
  · rintro ⟨e, h⟩
    cases hb : reg.baseOf items with
    | error e' => rw [element, hb] at h; cases h
    | ok b => exact ⟨b, baseOf_eq_ok_iff.1 hb⟩
  · rintro ⟨b, links, hends⟩
    rw [element, baseOf_of_ends hends]
    cases b with
    | string => exact ⟨_, nearestText_of_ends hends⟩
    | int8 | int16 | int32 | int64 => exact ⟨_, rfl⟩
    | _ => exact ⟨_, nearest_of_ends hends⟩

/-- A reference fails to become an element exactly if its chain fails. -/
theorem element_eq_error_iff {format : IntegerFormat} {items : String} {e : LookupError} :
    reg.element format items = .error e ↔ reg.Fails items e := by
  rcases reg.reaches_or_fails items with ⟨b, hb⟩ | ⟨e', he⟩
  · obtain ⟨o, ho⟩ := exists_element_iff.2 ⟨b, hb⟩
    rw [ho]
    exact ⟨nofun, fun h => absurd hb h.not_reaches⟩
  · rw [element, baseOf_eq_error_iff.2 he]
    constructor
    · rintro ⟨⟩
      exact he
    · exact fun h => congrArg Except.error (he.unique h)

/-- What a collection holds has an element if it is anything or comes down to a built-in type. -/
theorem exists_elements_iff {format : IntegerFormat} {items : String} :
    (∃ o, reg.elements format (some items) = .ok o) ↔ reg.ElementSound items := by
  by_cases hany : items = anyName
  · simp [elements, ElementSound, hany]
  · simp only [elements, ElementSound, hany, if_false, false_or, exists_map_eq_ok_iff]
    exact exists_element_iff

theorem elements_eq_error_iff {format : IntegerFormat} {items : String} {e : LookupError} :
    reg.elements format (some items) = .error e ↔ items ≠ anyName ∧ reg.Fails items e := by
  by_cases hany : items = anyName
  · simp [elements, hany]
  · simp [elements, hany, map_eq_error_iff, element_eq_error_iff]

/-! ### Fields -/

theorem itemsAs?_of_find {name : String} {m : Referent} (h : reg.find name = .ok m)
    (base : BaseType) : m.itemsAs? base = reg.declaredItems? name base := by
  rw [declaredItems?, h]
  cases m <;> rfl

/-- **The schema of a field, by the base type that its type comes down to.** -/
theorem content_eq {f : Field} {b : BaseType} (hb : reg.Reaches f.type b) :
    reg.content f =
      match b with
      | .array => (reg.elements .omitted (reg.itemsOf? f .array)).map .array
      | .map => (reg.elements .included (reg.itemsOf? f .map)).map .object
      | .string => (reg.nearestText f.type).map .element
      | .int8 => .ok (.element .byte)
      | .int16 | .int32 | .int64 => .ok (.element (.integer none))
      | .struct | .enum => .ok (.element (.ref f.type))
      | _ => .ok (.element (.unmapped f.type)) := by
  obtain ⟨m, hm, hbase⟩ := find_of_reaches hb
  simp only [content, hm, hbase, itemsAs?_of_find hm]
  cases b <;> rfl

/-- Once the type of a field is known, only what it holds can fail. -/
theorem exists_content_eq {f : Field} {b : BaseType} (hb : reg.Reaches f.type b) :
    ∃ format, ∃ k : Option Element → Content,
      reg.content f = (reg.elements format (reg.itemsOf? f b)).map k := by
  rw [content_eq hb]
  obtain ⟨links, hends⟩ := hb
  cases b with
  | array => exact ⟨.omitted, .array, rfl⟩
  | map => exact ⟨.included, .object, rfl⟩
  | string => exact ⟨.omitted, fun _ => _, by rw [nearestText_of_ends hends]; rfl⟩
  | _ => exact ⟨.omitted, fun _ => _, rfl⟩

/-- Nothing is made of a field whose type fails. -/
theorem content_of_fails {f : Field} {e : LookupError} (h : reg.Fails f.type e) :
    reg.content f = .error e := by
  have hbase := baseOf_eq_error_iff.2 h
  rw [content]
  -- the look-up before the walk fails only as the walk would
  cases hm : reg.find f.type with
  | error e' =>
      rw [baseOf_of_ends (.unknown hm)] at hbase
      exact congrArg Except.error (Except.error.inj hbase)
  | ok m =>
      rw [← baseOfReferent_of_find hm] at hbase
      simp only [hbase]

/-- A field has a property exactly if it is sound. -/
theorem exists_property_iff {f : Field} :
    (∃ p, reg.property f = .ok p) ↔ reg.FieldSound f := by
  rw [property, exists_map_eq_ok_iff]
  rcases reg.reaches_or_fails f.type with ⟨b, hb⟩ | ⟨e, he⟩
  · obtain ⟨format, k, hcontent⟩ := exists_content_eq hb
    rw [hcontent, exists_map_eq_ok_iff]
    constructor
    · rintro ⟨o, h⟩
      refine ⟨b, hb, fun items hitems => ?_⟩
      rw [hitems] at h
      exact exists_elements_iff.1 ⟨o, h⟩
    · rintro ⟨b', hb', hsound⟩
      obtain rfl := hb'.unique hb
      cases hitems : reg.itemsOf? f b' with
      | none => exact ⟨none, rfl⟩
      | some items => exact exists_elements_iff.2 (hsound items hitems)
  · rw [content_of_fails he]
    constructor
    · rintro ⟨_, ⟨⟩⟩
    · rintro ⟨b, hb, -⟩
      exact absurd hb he.not_reaches

/-- If it is not, the error says in what it fails. -/
theorem property_eq_error_iff {f : Field} {e : LookupError} :
    reg.property f = .error e ↔ reg.FieldFails f e := by
  rw [property, map_eq_error_iff]
  rcases reg.reaches_or_fails f.type with ⟨b, hb⟩ | ⟨e', he⟩
  · obtain ⟨format, k, hcontent⟩ := exists_content_eq hb
    rw [hcontent, map_eq_error_iff]
    constructor
    · intro h
      cases hitems : reg.itemsOf? f b with
      | none => rw [hitems] at h; cases h
      | some items =>
          rw [hitems] at h
          obtain ⟨hany, hfails⟩ := elements_eq_error_iff.1 h
          exact .items hb hitems hany hfails
    · rintro (h | ⟨hb', hitems, hany, hfails⟩)
      · exact absurd hb h.not_reaches
      · obtain rfl := hb'.unique hb
        rw [hitems]
        exact elements_eq_error_iff.2 ⟨hany, hfails⟩
  · rw [content_of_fails he]
    constructor
    · rintro ⟨⟩
      exact .type he
    · rintro (h | ⟨hb, -, -, -⟩)
      · exact congrArg Except.error (he.unique h)
      · exact absurd hb he.not_reaches

/-! ### Structs -/

/-- **The properties of a struct** are those of its fields, put in one after the other. -/
theorem properties_eq (fields : List Field) :
    reg.properties fields =
      (collect reg.property fields).map fun ps =>
        Entries.ofList (ps.map fun p => (p.1.name, p.2)) := by
  rw [properties, foldlM_eq_collect reg.property (fun ps f p => Entries.insert f.name p ps)
    (fun _ => True) (fun _ _ _ => rfl) (fun _ _ _ _ => trivial) trivial]
  simp only [Entries.ofList, List.foldl_map]

/-- **A struct has a property under the name of each of its fields**, where the name first comes. -/
theorem names_properties {fields : List Field} {ps : Entries Property}
    (h : reg.properties fields = .ok ps) :
    Entries.names ps = (fields.map (·.name)).eraseDups := by
  rw [properties_eq] at h
  obtain ⟨rs, hrs, rfl⟩ := map_eq_ok_iff.1 h
  obtain ⟨rfl, -⟩ := collect_eq_ok_iff.1 hrs
  rw [Entries.names_ofList, List.map_map, List.map_map]
  rfl

/-- No property of a struct has a name twice. -/
theorem nodup_names_properties {fields : List Field} {ps : Entries Property}
    (h : reg.properties fields = .ok ps) : (Entries.names ps).Nodup := by
  rw [properties_eq] at h
  obtain ⟨rs, -, rfl⟩ := map_eq_ok_iff.1 h
  exact Entries.nodup_names_ofList _

/-- **A property is that of the last field of its name.** -/
theorem mem_properties_iff {fields : List Field} {ps : Entries Property}
    (h : reg.properties fields = .ok ps) {name : String} {p : Property} :
    (name, p) ∈ ps ↔ ∃ before f after, fields = before ++ f :: after ∧ f.name = name ∧
      reg.property f = .ok p ∧ ∀ g ∈ after, g.name ≠ name := by
  rw [properties_eq] at h
  obtain ⟨rs, hrs, rfl⟩ := map_eq_ok_iff.1 h
  obtain ⟨rfl, hall⟩ := collect_eq_ok_iff.1 hrs
  -- every field has a property here, so later fields of a name always count
  have hpairs : rs.map (fun r => (r.1.name, r.2)) =
      rs.filterMap fun r => (some r.2).map fun p => (r.1.name, p) := by
    simp [List.filterMap_eq_map']
  rw [hpairs, Entries.mem_ofList_filterMap_iff]
  constructor
  · rintro ⟨before, ⟨f, q⟩, after, rfl, hname, hq, hafter⟩
    cases hq
    refine ⟨before.map (·.1), f, after.map (·.1), by simp, hname, hall (f, q) (by simp), ?_⟩
    intro g hg hgname
    obtain ⟨r, hr, rfl⟩ := List.mem_map.1 hg
    exact absurd (hafter r hr hgname) nofun
  · rintro ⟨before, f, after, hmap, hname, hp, hafter⟩
    obtain ⟨before, rest, rfl, rfl, hrest⟩ := List.map_eq_append_iff.1 hmap
    obtain ⟨⟨f, q⟩, after, rfl, rfl, rfl⟩ := List.map_eq_cons_iff.1 hrest
    refine ⟨before, (f, q), after, rfl, hname, ?_, fun r hr hrname => ?_⟩
    · exact congrArg some (Except.ok.inj ((hall (f, q) (by simp)).symm.trans hp))
    · exact absurd hrname (hafter r.1 (List.mem_map_of_mem hr))

/-- A struct has its properties exactly if all its fields are sound. -/
theorem exists_properties_iff {fields : List Field} :
    (∃ ps, reg.properties fields = .ok ps) ↔ ∀ f ∈ fields, reg.FieldSound f := by
  simp only [← exists_property_iff, ← exists_collect_iff, properties_eq, exists_map_eq_ok_iff]

/-- If not, the error is that of the first field that fails. -/
theorem properties_eq_error_iff {fields : List Field} {e : LookupError} :
    reg.properties fields = .error e ↔ ∃ before f after, fields = before ++ f :: after ∧
      (∀ g ∈ before, reg.FieldSound g) ∧ reg.FieldFails f e := by
  simp only [← exists_property_iff, ← property_eq_error_iff, ← collect_eq_error_iff,
    properties_eq, map_eq_error_iff]

/-! ### Types -/

/-- What the body of a type's definition is, by the form of the type. -/
inductive BodyIs (reg : Registry) (t : TypeDef) : Option Body → Prop where
  | struct {fields : List Field} {ps : Entries Property} (hform : t.form = .struct fields)
      (hps : reg.properties fields = .ok ps) :
      BodyIs reg t (some (.struct ps (requiredNames fields)))
  | array {items : String} {b : BaseType} {held : Option Element} (hform : t.form = .array items)
      (hb : reg.Reaches t.supertype b) (hheld : reg.elements .included (some items) = .ok held) :
      BodyIs reg t (some (.array (Text.lower b.name) held))
  | map {items : String} {held : Option Element} (hform : t.form = .map items)
      (hheld : reg.elements .included (some items) = .ok held) : BodyIs reg t (some (.object held))
  | enum {symbols : List String} (hform : t.form = .enum symbols) :
      BodyIs reg t (some (.enum symbols))
  | text {c : Constraints} (hform : t.form = .text c) (hany : c.any = true) :
      BodyIs reg t (some (.text c.maxSize c.minSize (nonEmpty? c.pattern) c.values))
  | plainText {c : Constraints} (hform : t.form = .text c) (hany : c.any = false) :
      BodyIs reg t none
  | union {variants : List String} (hform : t.form = .union variants) : BodyIs reg t none
  | structAlias (hform : t.form = .bare) (hb : reg.Reaches t.supertype .struct) :
      BodyIs reg t (some (.object none))
  | plainAlias {b : BaseType} (hform : t.form = .bare) (hb : reg.Reaches t.supertype b)
      (hplain : b.isNumeric = true ∨ b = .string) : BodyIs reg t none

theorem bodyIs_of_body {t : TypeDef} {o : Option Body} (h : reg.body t = .ok o) :
    reg.BodyIs t o := by
  rw [body] at h
  cases hform : t.form with
  | struct fields =>
      simp only [hform] at h
      split at h
      · cases h
      · next ps hps => cases h; exact .struct hform hps
  | array items =>
      simp only [hform] at h
      split at h
      · cases h
      · next b hb =>
          split at h
          · cases h
          · next held hheld => cases h; exact .array hform (baseOf_eq_ok_iff.1 hb) hheld
  | map items =>
      simp only [hform] at h
      split at h
      · cases h
      · next held hheld => cases h; exact .map hform hheld
  | enum symbols =>
      simp only [hform] at h
      cases h
      exact .enum hform
  | text c =>
      simp only [hform] at h
      split at h
      · next hany => cases h; exact .text hform hany
      · next hany => cases h; exact .plainText hform (Bool.eq_false_iff.2 hany)
  | union variants =>
      simp only [hform] at h
      cases h
      exact .union hform
  | bare =>
      simp only [hform] at h
      split at h
      · cases h
      · next b hb =>
          have hreaches := baseOf_eq_ok_iff.1 hb
          split at h
          · next hplain =>
              cases h
              rw [Bool.or_eq_true, beq_iff_eq] at hplain
              exact .plainAlias hform hreaches hplain
          · split at h
            · next hstruct => cases h; exact .structAlias hform (hstruct ▸ hreaches)
            · cases h

/-- **The body of a definition**, where there is one, by the form of the type. -/
theorem body_eq_ok_iff {t : TypeDef} {o : Option Body} :
    reg.body t = .ok o ↔ reg.BodyIs t o := by
  refine ⟨bodyIs_of_body, fun h => ?_⟩
  rw [body]
  cases h with
  | struct hform hps => simp only [hform, hps]
  | array hform hb hheld => simp only [hform, baseOf_eq_ok_iff.2 hb, hheld]
  | map hform hheld => simp only [hform, hheld]
  | enum hform | union hform => simp only [hform]
  | text hform hany | plainText hform hany => simp [hform, hany]
  | structAlias hform hb => simp [hform, baseOf_eq_ok_iff.2 hb, BaseType.isNumeric]
  | plainAlias hform hb hplain => simp [hform, baseOf_eq_ok_iff.2 hb, hplain]

theorem BodyIs.of_struct {t : TypeDef} {o : Option Body} {fields : List Field}
    (h : reg.BodyIs t o) (hform : t.form = .struct fields) :
    ∃ ps, reg.properties fields = .ok ps ∧ o = some (.struct ps (requiredNames fields)) := by
  cases h with
  | struct hform' hps =>
      obtain rfl := Form.struct.inj (hform.symm.trans hform')
      exact ⟨_, hps, rfl⟩
  | array hform' | map hform' | enum hform' | text hform' | plainText hform' | union hform'
  | structAlias hform' | plainAlias hform' => cases hform.symm.trans hform'

/-- The body of an array says the built-in type at the end and what it holds. -/
theorem BodyIs.of_array {t : TypeDef} {o : Option Body} {items : String}
    (h : reg.BodyIs t o) (hform : t.form = .array items) :
    ∃ (b : BaseType) (held : Option Element),
      reg.elements .included (some items) = .ok held ∧
        o = some (.array (Text.lower b.name) held) := by
  cases h with
  | @array _ b held hform' _ hheld =>
      obtain rfl := Form.array.inj (hform.symm.trans hform')
      exact ⟨b, held, hheld, rfl⟩
  | struct hform' | map hform' | enum hform' | text hform' | plainText hform' | union hform'
  | structAlias hform' | plainAlias hform' => cases hform.symm.trans hform'

theorem BodyIs.of_map {t : TypeDef} {o : Option Body} {items : String}
    (h : reg.BodyIs t o) (hform : t.form = .map items) :
    ∃ held, reg.elements .included (some items) = .ok held ∧ o = some (.object held) := by
  cases h with
  | map hform' hheld =>
      obtain rfl := Form.map.inj (hform.symm.trans hform')
      exact ⟨_, hheld, rfl⟩
  | struct hform' | array hform' | enum hform' | text hform' | plainText hform' | union hform'
  | structAlias hform' | plainAlias hform' => cases hform.symm.trans hform'

theorem define_declared_eq (t : TypeDef) :
    reg.define (.declared t) = (reg.body t).map fun body =>
      body.map fun body => { description := nonEmpty? t.comment, body } :=
  rfl

/-- **A type can be converted exactly when all that it refers to is sound.** -/
theorem exists_define_iff {t : TypeDef} :
    (∃ o, reg.define (.declared t) = .ok o) ↔ reg.Sound t := by
  rw [define_declared_eq, exists_map_eq_ok_iff]
  simp only [body_eq_ok_iff]
  constructor
  · rintro ⟨o, h⟩
    rw [Sound]
    cases h with
    | struct hform hps =>
        rw [hform]
        exact exists_properties_iff.1 ⟨_, hps⟩
    | array hform hb hheld =>
        rw [hform]
        exact ⟨⟨_, hb⟩, exists_elements_iff.1 ⟨_, hheld⟩⟩
    | map hform hheld =>
        rw [hform]
        exact exists_elements_iff.1 ⟨_, hheld⟩
    | enum hform | text hform _ | plainText hform _ | union hform =>
        rw [hform]
        trivial
    | structAlias hform hb =>
        rw [hform]
        exact ⟨_, hb, .inr (.inr rfl)⟩
    | plainAlias hform hb hplain =>
        rw [hform]
        exact ⟨_, hb, hplain.imp_right .inl⟩
  · intro h
    rw [Sound] at h
    cases hform : t.form with
    | struct fields =>
        rw [hform] at h
        obtain ⟨ps, hps⟩ := exists_properties_iff.2 h
        exact ⟨_, .struct hform hps⟩
    | array items =>
        rw [hform] at h
        obtain ⟨⟨b, hb⟩, hitems⟩ := h
        obtain ⟨held, hheld⟩ := exists_elements_iff.2 hitems
        exact ⟨_, .array hform hb hheld⟩
    | map items =>
        rw [hform] at h
        obtain ⟨held, hheld⟩ := exists_elements_iff.2 h
        exact ⟨_, .map hform hheld⟩
    | enum symbols => exact ⟨_, .enum hform⟩
    | text c =>
        cases hany : c.any with
        | true => exact ⟨_, .text hform hany⟩
        | false => exact ⟨_, .plainText hform hany⟩
    | union variants => exact ⟨_, .union hform⟩
    | bare =>
        rw [hform] at h
        obtain ⟨b, hb, hnumeric | rfl | rfl⟩ := h
        · exact ⟨_, .plainAlias hform hb (.inl hnumeric)⟩
        · exact ⟨_, .plainAlias hform hb (.inr rfl)⟩
        · exact ⟨_, .structAlias hform hb⟩

/-- Where there is no body, the type fails in just that. -/
theorem typeFails_of_body {t : TypeDef} {e : ConversionError} (h : reg.body t = .error e) :
    reg.TypeFails t e := by
  rw [body] at h
  cases hform : t.form with
  | struct fields =>
      simp only [hform] at h
      split at h
      · next e' hps =>
          cases h
          obtain ⟨before, f, after, rfl, hbefore, hf⟩ := properties_eq_error_iff.1 hps
          exact .field hform hbefore hf
      · cases h
  | array items =>
      simp only [hform] at h
      split at h
      · next e' hb => cases h; exact .arraySupertype hform (baseOf_eq_error_iff.1 hb)
      · next b hb =>
          split at h
          · next e' hheld =>
              cases h
              obtain ⟨hany, hfails⟩ := elements_eq_error_iff.1 hheld
              exact .arrayItems hform (baseOf_eq_ok_iff.1 hb) hany hfails
          · cases h
  | map items =>
      simp only [hform] at h
      split at h
      · next e' hheld =>
          cases h
          obtain ⟨hany, hfails⟩ := elements_eq_error_iff.1 hheld
          exact .mapItems hform hany hfails
      · cases h
  | enum _ | text _ | union _ =>
      simp only [hform] at h
      cases h
  | bare =>
      simp only [hform] at h
      split at h
      · next e' hb => cases h; exact .aliasSupertype hform (baseOf_eq_error_iff.1 hb)
      · next b hb =>
          split at h
          · cases h
          · next hplain =>
              split at h
              · cases h
              · next hstruct =>
                  cases h
                  rw [Bool.or_eq_true, not_or, beq_iff_eq, Bool.not_eq_true] at hplain
                  exact .aliasBase hform (baseOf_eq_ok_iff.1 hb) hplain.1 hplain.2 hstruct

/-- **A type that cannot be converted fails for the first reason there is.** -/
theorem define_eq_error_iff {t : TypeDef} {e : ConversionError} :
    reg.define (.declared t) = .error e ↔ reg.TypeFails t e := by
  rw [define_declared_eq, map_eq_error_iff]
  refine ⟨typeFails_of_body, fun h => ?_⟩
  rw [body]
  cases h with
  | field hform hbefore hf =>
      simp only [hform, properties_eq_error_iff.2 ⟨_, _, _, rfl, hbefore, hf⟩]
  | arraySupertype hform hf => simp only [hform, baseOf_eq_error_iff.2 hf]
  | arrayItems hform hb hany hf =>
      simp only [hform, baseOf_eq_ok_iff.2 hb, elements_eq_error_iff.2 ⟨hany, hf⟩]
  | mapItems hform hany hf => simp only [hform, elements_eq_error_iff.2 ⟨hany, hf⟩]
  | aliasSupertype hform hf => simp only [hform, baseOf_eq_error_iff.2 hf]
  | aliasBase hform hb hnumeric hstring hstruct =>
      simp [hform, baseOf_eq_ok_iff.2 hb, hnumeric, hstring, hstruct]

/-- **A type that can be converted produces a definition exactly when it is of a form that
does.** -/
theorem isSome_iff_defines {t : TypeDef} {o : Option Definition}
    (h : reg.define (.declared t) = .ok o) : o.isSome = true ↔ reg.Defines t := by
  rw [define_declared_eq] at h
  obtain ⟨body, hbody, rfl⟩ := map_eq_ok_iff.1 h
  rw [Option.isSome_map, Defines]
  cases body_eq_ok_iff.1 hbody with
  | struct hform _ | array hform _ _ | map hform _ | enum hform | union hform => simp [hform]
  | text hform hany | plainText hform hany => simp [hform, hany]
  | structAlias hform hb => simpa [hform] using hb
  | plainAlias hform hb hplain =>
      rw [hform]
      refine ⟨nofun, fun hstruct => ?_⟩
      -- an alias comes down to one built-in type only
      obtain rfl := hb.unique hstruct
      simp [BaseType.isNumeric] at hplain

end Registry
end InterfaceSchema
