import InterfaceSchema.Proofs.Document

/-!
# References

A schema refers to the definition under a name with a `$ref`.  `Draft.Refers` finds the values
of all of them in the JSON of a document, at whatever depth; there they come from the elements of
its definitions (`Document.refers_toJson_iff`).

A name *resolves* when it is built in or has a definition.  What a collection holds, and a text,
refer to names that resolve: their chains are searched for types that produce a definition
(`content_resolves`).  A field that comes down to a struct or an enum refers to its type as it
stands, and that need not produce a definition: it may be a union, or a text without constraints.

* `refs_resolve_iff`: every reference of a document resolves exactly when the types of these
  fields do.
* `refs_resolve_of_fitting`: so they do where every union comes down to a union, and every text to
  a string.
* `references_resolve_iff`: the same of every `$ref` in the JSON.
-/

namespace InterfaceSchema
namespace Draft

/-! ### References in JSON -/

/-- A schema in JSON, or a schema within it, says `x` for `$ref`.  Schemas stand under `items`
and `additionalProperties`, and under the names in `definitions` and `properties`. -/
inductive Refers : Json → Json → Prop where
  | here {ms : Entries Json} {x : Json} (h : ("$ref", x) ∈ ms) : Refers (.obj ms) x
  | element {ms : Entries Json} {key : String} {v x : Json} (h : (key, v) ∈ ms)
      (hkey : key = "items" ∨ key = "additionalProperties") (hv : Refers v x) : Refers (.obj ms) x
  | named {ms es : Entries Json} {key name : String} {v x : Json} (h : (key, .obj es) ∈ ms)
      (hkey : key = "definitions" ∨ key = "properties") (he : (name, v) ∈ es) (hv : Refers v x) :
      Refers (.obj ms) x

theorem refers_obj_iff {ms : Entries Json} {x : Json} :
    Refers (.obj ms) x ↔
      ("$ref", x) ∈ ms ∨
      (∃ v, (("items", v) ∈ ms ∨ ("additionalProperties", v) ∈ ms) ∧ Refers v x) ∨
      ∃ es, (("definitions", .obj es) ∈ ms ∨ ("properties", .obj es) ∈ ms) ∧
        ∃ e ∈ es, Refers e.2 x := by
  constructor
  · intro h
    cases h with
    | here h => exact .inl h
    | element h hkey hv =>
        refine .inr (.inl ⟨_, ?_, hv⟩)
        rcases hkey with rfl | rfl
        · exact .inl h
        · exact .inr h
    | named h hkey he hv =>
        refine .inr (.inr ⟨_, ?_, _, he, hv⟩)
        rcases hkey with rfl | rfl
        · exact .inl h
        · exact .inr h
  · rintro (h | ⟨v, h | h, hv⟩ | ⟨es, h | h, e, he, hv⟩)
    · exact .here h
    · exact .element h (.inl rfl) hv
    · exact .element h (.inr rfl) hv
    · exact .named h (.inl rfl) he hv
    · exact .named h (.inr rfl) he hv

/-- The name that an element refers to. -/
def Element.ref? : Element → Option String
  | .ref name => some name
  | _ => none

/-- The name that the schema of a property refers to. -/
def Content.ref? : Content → Option String
  | .element e => e.ref?
  | .array held | .object held => held.bind Element.ref?

/-- The names that a definition refers to. -/
def Body.refs : Body → List String
  | .struct properties _ => properties.filterMap (·.2.content.ref?)
  | .array _ held | .object held => (held.bind Element.ref?).toList
  | .enum _ | .text .. => []

theorem mem_member?_iff {α : Type} {key name : String} {toJson : α → Json} {value : Option α}
    {v : Json} :
    (name, v) ∈ member? key toJson value ↔ name = key ∧ ∃ a, value = some a ∧ v = toJson a := by
  cases value <;> simp [member?]

theorem Element.refers_toJson_iff {e : Element} {x : Json} :
    Refers e.toJson x ↔ ∃ n, e.ref? = some n ∧ x = .str (pointer n) := by
  rw [toJson, refers_obj_iff]
  cases e <;> simp [members, ref?, mem_member?_iff]

/-- What a collection holds, if anything is said of it. -/
theorem exists_refers_toJson_iff {held : Option Element} {x : Json} :
    (∃ e, held = some e ∧ Refers e.toJson x) ↔
      ∃ n, held.bind Element.ref? = some n ∧ x = .str (pointer n) := by
  cases held <;> simp [Element.refers_toJson_iff]

theorem Property.refers_toJson_iff {p : Property} {x : Json} :
    Refers p.toJson x ↔ ∃ n, p.content.ref? = some n ∧ x = .str (pointer n) := by
  obtain ⟨description, content⟩ := p
  rw [toJson, refers_obj_iff]
  cases content with
  | element e =>
      -- the members of the element stand among those of the property
      rw [Content.ref?, ← Element.refers_toJson_iff, Element.toJson, refers_obj_iff]
      simp [Content.members, mem_member?_iff]
  | array held | object held =>
      rw [Content.ref?, ← exists_refers_toJson_iff]
      simp [Content.members, mem_member?_iff]

theorem Definition.refers_toJson_iff {v : Definition} {x : Json} :
    Refers v.toJson x ↔ ∃ n ∈ v.body.refs, x = .str (pointer n) := by
  obtain ⟨description, body⟩ := v
  rw [toJson, refers_obj_iff]
  cases body with
  | struct properties required =>
      have hproperties : (∃ e ∈ properties, Refers e.2.toJson x) ↔
          ∃ n ∈ properties.filterMap (·.2.content.ref?), x = .str (pointer n) := by
        simp only [Property.refers_toJson_iff, List.mem_filterMap]
        constructor
        · rintro ⟨e, he, n, hn, hx⟩
          exact ⟨n, ⟨e, he, hn⟩, hx⟩
        · rintro ⟨n, ⟨e, he, hn⟩, hx⟩
          exact ⟨e, he, n, hn, hx⟩
      rw [Body.refs, ← hproperties]
      simp [Body.members, mem_member?_iff]
  | array type held | object held =>
      simp only [Body.refs, Option.mem_toList]
      rw [← exists_refers_toJson_iff]
      simp [Body.members, mem_member?_iff]
  | enum symbols | text =>
      simp [Body.members, Body.refs, mem_member?_iff]

end Draft

open Draft (Element Content Property Body Definition Refers)

/-- The names that the definitions of the document refer to. -/
def Document.refs (d : Document) : List String := d.definitions.flatMap (·.2.body.refs)

theorem Document.mem_refs_iff {d : Document} {n : String} :
    n ∈ d.refs ↔ ∃ name v, (name, v) ∈ d.definitions ∧ n ∈ v.body.refs := by
  simp [refs]

/-- **Every reference in the JSON of a document is one of a definition.** -/
theorem Document.refers_toJson_iff {d : Document} {x : Json} :
    Refers d.toJson x ↔ ∃ n ∈ d.refs, x = .str (Draft.pointer n) := by
  have hdefinitions : (∃ e ∈ d.definitions, Refers e.2.toJson x) ↔
      ∃ n ∈ d.refs, x = .str (Draft.pointer n) := by
    simp only [Definition.refers_toJson_iff, refs, List.mem_flatMap]
    constructor
    · rintro ⟨e, he, n, hn, hx⟩
      exact ⟨n, ⟨e, he, hn⟩, hx⟩
    · rintro ⟨n, ⟨e, he, hn⟩, hx⟩
      exact ⟨e, he, n, hn, hx⟩
  rw [toJson_eq, Draft.refers_obj_iff, ← hdefinitions]
  by_cases hnil : d.definitions = [] <;> simp [hnil]

/-! ### References of one type -/

namespace Registry
variable {reg : Registry}

/-- The name is that of a built-in type, or of a type that produces a definition. -/
def Resolves (reg : Registry) (name : String) : Prop :=
  (∃ b : BaseType, b.name = name) ∨ ∃ t ∈ reg.types, t.name = name ∧ reg.Defines t

/-- **What a search stops at produces a definition**, if it comes to a reference. -/
theorem defines_of_nearest? {name reference n : String} {links : List TypeDef} {base : BaseType}
    (h : reg.Ends name links (.ok base)) {t : TypeDef} (ht : t ∈ links) {e : Element}
    (he : t.nearest? reference base = some e) (hn : e.ref? = some n) :
    t.name = n ∧ reg.Defines t := by
  rw [TypeDef.nearest?] at he
  rw [Defines]
  cases hform : t.form with
  | struct _ | enum _ | map _ | array _ =>
      simp only [hform] at he
      cases he
      exact ⟨Option.some.inj hn, trivial⟩
  | text c =>
      simp only [hform] at he
      split at he
      · next hany => cases he; exact ⟨Option.some.inj hn, hany⟩
      · cases he
  | union _ =>
      simp only [hform] at he
      cases he
      cases hn
  | bare =>
      simp only [hform] at he
      split at he
      · next hstruct =>
          cases he
          obtain ⟨after, hafter, -⟩ := h.from ht
          cases hafter with
          | declared _ up => exact ⟨Option.some.inj hn, after, hstruct ▸ up⟩
      · cases he

theorem defines_of_nearestTextAt {n : String} {t : TypeDef} {e : Element}
    (he : nearestTextAt t = some e) (hn : e.ref? = some n) : t.name = n ∧ reg.Defines t := by
  rw [nearestTextAt] at he
  rw [Defines]
  split at he
  · next c hform =>
      split at he
      · next hany => cases he; rw [hform]; exact ⟨Option.some.inj hn, hany⟩
      · cases he
  · cases he

/-- What a search of a chain comes to is what is at its end, or what one of the types is for it. -/
theorem ref?_of_search {links : List TypeDef} {pick : TypeDef → Option Element} {top : Element}
    {n : String} (hn : ((links.findSome? pick).getD top).ref? = some n) :
    top.ref? = some n ∨ ∃ t ∈ links, ∃ e, pick t = some e ∧ e.ref? = some n := by
  cases hfound : links.findSome? pick with
  | none =>
      rw [hfound] at hn
      exact .inl hn
  | some e =>
      rw [hfound] at hn
      obtain ⟨t, ht, hpick⟩ := List.exists_of_findSome?_eq_some hfound
      exact .inr ⟨t, ht, e, hpick, hn⟩

theorem nearest_resolves {name n : String} {links : List TypeDef} {base : BaseType}
    (h : reg.Ends name links (.ok base)) {e : Element} (he : reg.nearest name = .ok e)
    (hn : e.ref? = some n) : reg.Resolves n := by
  rw [nearest_of_ends h] at he
  obtain rfl := Except.ok.inj he
  rcases ref?_of_search hn with hbase | ⟨t, ht, e, hpick, href⟩
  · exact .inl ⟨base, Option.some.inj hbase⟩
  · obtain ⟨hname, hdefines⟩ := defines_of_nearest? h ht hpick href
    exact .inr ⟨t, h.mem_types ht, hname, hdefines⟩

theorem nearestText_resolves {name n : String} {links : List TypeDef} {base : BaseType}
    (h : reg.Ends name links (.ok base)) {e : Element} (he : reg.nearestText name = .ok e)
    (hn : e.ref? = some n) : reg.Resolves n := by
  rw [nearestText_of_ends h] at he
  obtain rfl := Except.ok.inj he
  rcases ref?_of_search hn with hbase | ⟨t, ht, e, hpick, href⟩
  · cases hbase
  · obtain ⟨hname, hdefines⟩ := defines_of_nearestTextAt hpick href
    exact .inr ⟨t, h.mem_types ht, hname, hdefines⟩

/-- **What a collection holds refers to a name that resolves.** -/
theorem element_resolves {format : IntegerFormat} {reference n : String} {e : Element}
    (h : reg.element format reference = .ok e) (hn : e.ref? = some n) : reg.Resolves n := by
  obtain ⟨base, links, hends⟩ := exists_element_iff.1 ⟨e, h⟩
  rw [element, baseOf_of_ends hends] at h
  cases base with
  | string => exact nearestText_resolves hends h hn
  | int8 | int16 | int32 | int64 =>
      cases h
      cases hn
  | _ => exact nearest_resolves hends h hn

theorem elements_resolve {format : IntegerFormat} {reference : Option String} {n : String}
    {held : Option Element} (h : reg.elements format reference = .ok held)
    (hn : held.bind Element.ref? = some n) : reg.Resolves n := by
  cases reference with
  | none => cases h; cases hn
  | some items =>
      rw [elements] at h
      split at h
      · cases h; cases hn
      · obtain ⟨e, he, rfl⟩ := map_eq_ok_iff.1 h
        exact element_resolves he hn

/-- The type of the field comes down to a struct or an enum, and the field refers to it as it
stands. -/
def RefersDirectly (reg : Registry) (f : Field) : Prop :=
  reg.Reaches f.type .struct ∨ reg.Reaches f.type .enum

theorem content_of_refersDirectly {f : Field} (h : reg.RefersDirectly f) :
    reg.content f = .ok (.element (.ref f.type)) := by
  rcases h with hb | hb
  · obtain ⟨m, hm, hbase⟩ := find_of_reaches hb
    simp only [content, hm, hbase]
  · obtain ⟨m, hm, hbase⟩ := find_of_reaches hb
    simp only [content, hm, hbase]

/-- **A field refers to a name that resolves, or directly.** -/
theorem content_resolves {f : Field} {c : Content} {n : String} (h : reg.content f = .ok c)
    (hn : c.ref? = some n) : reg.Resolves n ∨ reg.RefersDirectly f ∧ f.type = n := by
  rcases reg.reaches_or_fails f.type with ⟨base, hb⟩ | ⟨e, he⟩
  · obtain ⟨m, hm, hbase⟩ := find_of_reaches hb
    simp only [content, hm, hbase] at h
    cases base with
    | array | map =>
        obtain ⟨held, hheld, rfl⟩ := map_eq_ok_iff.1 h
        exact .inl (elements_resolve hheld hn)
    | string =>
        obtain ⟨links, hends⟩ := hb
        obtain ⟨e, he, rfl⟩ := map_eq_ok_iff.1 h
        exact .inl (nearestText_resolves hends he hn)
    | struct =>
        cases h
        exact .inr ⟨.inl hb, Option.some.inj hn⟩
    | enum =>
        cases h
        exact .inr ⟨.inr hb, Option.some.inj hn⟩
    | _ =>
        cases h
        cases hn
  · rw [content_of_fails he] at h
    cases h

/-- **A definition refers to names that resolve**, its own fields apart. -/
theorem body_resolves {t : TypeDef} {body : Body} {n : String}
    (h : reg.body t = .ok (some body)) (hn : n ∈ body.refs) :
    reg.Resolves n ∨ ∃ fields ps, t.form = .struct fields ∧ reg.properties fields = .ok ps ∧
      ∃ name p, (name, p) ∈ ps ∧ p.content.ref? = some n := by
  cases body_eq_ok_iff.1 h with
  | struct hform hps =>
      obtain ⟨⟨name, p⟩, hp, href⟩ := List.mem_filterMap.1 hn
      exact .inr ⟨_, _, hform, hps, name, p, hp, href⟩
  | array _ _ hheld | map _ hheld =>
      exact .inl (elements_resolve hheld (Option.mem_toList.1 hn))
  | enum _ | text _ _ | structAlias _ _ => cases hn

/-- The form of the type is one for what its supertype comes down to. -/
def Fits (reg : Registry) (t : TypeDef) : Prop :=
  match t.form with
  | .union _ => reg.Reaches t.supertype .union
  | .text _  => reg.Reaches t.supertype .string
  | _        => True

/-- A field that refers directly refers to a definition, if its type fits. -/
theorem resolves_of_fits {f : Field} (hdirect : reg.RefersDirectly f)
    (hsound : ∀ t ∈ reg.types, reg.Sound t) (hfits : ∀ t ∈ reg.types, reg.Fits t) :
    reg.Resolves f.type := by
  obtain ⟨base, hbase, links, hends⟩ :
      ∃ base, (base = .struct ∨ base = .enum) ∧ reg.Reaches f.type base := by
    rcases hdirect with h | h
    · exact ⟨.struct, .inl rfl, h⟩
    · exact ⟨.enum, .inr rfl, h⟩
  cases hends with
  | builtIn hf => exact .inl ⟨base, find_eq_builtIn_iff.1 hf⟩
  | @declared _ t links _ hf up =>
      have ht := mem_of_find hf
      -- no other built-in type is at the end of the walk
      have hend : ∀ b, reg.Reaches t.supertype b → b = base := fun b ⟨_, hb⟩ =>
        Except.ok.inj (hb.unique up).2
      refine .inr ⟨t, ht, name_of_find hf, ?_⟩
      have hs := hsound t ht
      have hfit := hfits t ht
      rw [Sound] at hs
      rw [Fits] at hfit
      rw [Defines]
      cases hform : t.form with
      | struct _ | enum _ | map _ | array _ => trivial
      | union _ =>
          rw [hform] at hfit
          rcases hbase with rfl | rfl <;> cases hend _ hfit
      | text _ =>
          rw [hform] at hfit
          rcases hbase with rfl | rfl <;> cases hend _ hfit
      | bare =>
          rw [hform] at hs
          obtain ⟨b, hb, hkind⟩ := hs
          obtain rfl := hend b hb
          rcases hbase with rfl | rfl
          · exact hb
          · simp [BaseType.isNumeric] at hkind

end Registry

/-! ### References of a document -/

/-- The field is the last of its name in a struct whose definition stands. -/
def Schema.Shows (s : Schema) (f : Field) : Prop :=
  ∃ t before after, s.Stands t ∧ t.form = .struct (before ++ f :: after) ∧
    ∀ g ∈ after, g.name ≠ f.name

namespace Document

/-- The registry of the document of a schema finds in the definitions what resolves. -/
theorem resolves_iff {s : Schema} {d : Document} (h : ofSchema s = .ok d) {n : String} :
    (Registry.ofSchema s).Resolves n ↔
      (∃ b : BaseType, b.name = n) ∨ n ∈ Entries.names d.definitions := by
  rw [mem_names_definitions_iff h]
  rfl

/-- A type that comes to a definition comes to its body. -/
theorem body_of_convert {s : Schema} {t : TypeDef} {v : Definition}
    (h : s.convert t = .ok (some v)) : (Registry.ofSchema s).body t = .ok (some v.body) := by
  rw [Schema.convert_eq, Registry.define_declared_eq] at h
  obtain ⟨body, hbody, hv⟩ := map_eq_ok_iff.1 h
  obtain ⟨body, rfl, rfl⟩ := Option.map_eq_some_iff.1 hv
  exact hbody

/-- **A reference of a document resolves, or a field that stands in it makes it directly.** -/
theorem resolves_or_shown {s : Schema} {d : Document} (h : ofSchema s = .ok d) {n : String}
    (hn : n ∈ d.refs) :
    (Registry.ofSchema s).Resolves n ∨
      ∃ f, s.Shows f ∧ (Registry.ofSchema s).RefersDirectly f ∧ f.type = n := by
  obtain ⟨name, v, hv, href⟩ := mem_refs_iff.1 hn
  obtain ⟨t, hstands, -, hconvert⟩ := (mem_definitions_iff h).1 hv
  rcases Registry.body_resolves (body_of_convert hconvert) href with
    hresolves | ⟨fields, ps, hform, hps, key, p, hp, hpn⟩
  · exact .inl hresolves
  · obtain ⟨before, f, after, rfl, rfl, hproperty, hafter⟩ :=
      (Registry.mem_properties_iff hps).1 hp
    rw [Registry.property] at hproperty
    obtain ⟨c, hc, rfl⟩ := map_eq_ok_iff.1 hproperty
    rcases Registry.content_resolves hc hpn with hresolves | ⟨hdirect, rfl⟩
    · exact .inl hresolves
    · exact .inr ⟨f, ⟨t, before, after, hstands, hform, hafter⟩, hdirect, rfl⟩

/-- A field that stands in the document and refers directly makes its reference there. -/
theorem mem_refs_of_shows {s : Schema} {d : Document} (h : ofSchema s = .ok d) {f : Field}
    (hf : s.Shows f) (hdirect : (Registry.ofSchema s).RefersDirectly f) : f.type ∈ d.refs := by
  obtain ⟨t, before, after, hstands, hform, hafter⟩ := hf
  have hdefines : (Registry.ofSchema s).Defines t := by
    rw [Registry.Defines, hform]
    trivial
  obtain ⟨v, hv⟩ := exists_convert_of_defines h hstands.mem hdefines
  obtain ⟨ps, hps, hbody⟩ :=
    (Registry.body_eq_ok_iff.1 (body_of_convert hv)).of_struct hform
  -- no later field of the struct and no later type takes its place
  have hproperty : (Registry.ofSchema s).property f =
      .ok ⟨nonEmpty? f.comment, .element (.ref f.type)⟩ := by
    rw [Registry.property, Registry.content_of_refersDirectly hdirect]
    rfl
  have hp := (Registry.mem_properties_iff hps).2 ⟨before, f, after, rfl, rfl, hproperty, hafter⟩
  refine mem_refs_iff.2 ⟨t.name, v, (mem_definitions_iff h).2 ⟨t, hstands, rfl, hv⟩, ?_⟩
  rw [Option.some.inj hbody]
  exact List.mem_filterMap.2 ⟨_, hp, rfl⟩

/-- **The references of a document resolve** exactly when those of the fields that refer directly
do. -/
theorem refs_resolve_iff {s : Schema} {d : Document} (h : ofSchema s = .ok d) :
    (∀ n ∈ d.refs, (Registry.ofSchema s).Resolves n) ↔
      ∀ f, s.Shows f → (Registry.ofSchema s).RefersDirectly f →
        (Registry.ofSchema s).Resolves f.type := by
  constructor
  · intro hrefs f hf hdirect
    exact hrefs _ (mem_refs_of_shows h hf hdirect)
  · intro hfields n hn
    rcases resolves_or_shown h hn with hresolves | ⟨f, hf, hdirect, rfl⟩
    · exact hresolves
    · exact hfields f hf hdirect

/-- **Where the forms of all types fit, every reference resolves.** -/
theorem refs_resolve_of_fitting {s : Schema} {d : Document} (h : ofSchema s = .ok d)
    (hfits : ∀ t ∈ s.types, (Registry.ofSchema s).Fits t) {n : String} (hn : n ∈ d.refs) :
    (Registry.ofSchema s).Resolves n :=
  (refs_resolve_iff h).2 (fun _ _ hdirect =>
    Registry.resolves_of_fits hdirect (exists_ofSchema_iff.1 ⟨d, h⟩) hfits) n hn

/-- **Every `$ref` in the JSON of a document points to a built-in type or to a definition**
exactly when no field that stands in it refers directly to a type without one. -/
theorem references_resolve_iff {s : Schema} {d : Document} (h : ofSchema s = .ok d) :
    (∀ x, Refers d.toJson x → ∃ n, x = .str (Draft.pointer n) ∧
        ((∃ b : BaseType, b.name = n) ∨ n ∈ Entries.names d.definitions)) ↔
      ∀ f, s.Shows f → (Registry.ofSchema s).RefersDirectly f →
        (Registry.ofSchema s).Resolves f.type := by
  rw [← refs_resolve_iff h]
  simp only [← resolves_iff h]
  constructor
  · intro hrefers n hn
    obtain ⟨m, hm, hresolves⟩ := hrefers _ (refers_toJson_iff.2 ⟨n, hn, rfl⟩)
    have hnm : n = m := (String.append_right_inj "#/definitions/").1 (Json.str.inj hm)
    rwa [hnm]
  · intro hrefs x hx
    obtain ⟨n, hn, rfl⟩ := refers_toJson_iff.1 hx
    exact ⟨n, rfl, hrefs n hn⟩

/-- A struct that a field and a list refer to. -/
theorem references_resolve_struct_field :
    let s : Schema := ⟨"Teams", [⟨"Team", "Struct", none, .struct
        [⟨"captain", "Player", false, none, none⟩, ⟨"all", "Array", false, some "Player", none⟩]⟩,
      ⟨"Player", "Struct", none, .struct []⟩]⟩
    ∃ d, ofSchema s = .ok d ∧ d.refs = ["Player", "Player"] ∧
      ∀ x, Refers d.toJson x → ∃ n, x = .str (Draft.pointer n) ∧
        ((∃ b : BaseType, b.name = n) ∨ n ∈ Entries.names d.definitions) := by
  intro s
  obtain ⟨d, h, hrefs⟩ : ∃ d, ofSchema s = .ok d ∧ d.refs = ["Player", "Player"] := ⟨_, rfl, rfl⟩
  refine ⟨d, h, hrefs, (references_resolve_iff h).2 ?_⟩
  rintro f ⟨t, before, after, hstands, hform, -⟩ -
  have hf : f.type = "Player" ∨ f.type = "Array" := by
    have ht := hstands.mem
    simp only [s, List.mem_cons, List.not_mem_nil, or_false] at ht
    rcases ht with rfl | rfl
    · have hmem : f ∈ before ++ f :: after := List.mem_append_right before List.mem_cons_self
      rw [← Form.struct.inj hform] at hmem
      simp only [List.mem_cons, List.not_mem_nil, or_false] at hmem
      rcases hmem with rfl | rfl
      · exact .inl rfl
      · exact .inr rfl
    · exact absurd (Form.struct.inj hform) (by simp)
  rcases hf with hf | hf
  · rw [hf]
    exact .inr ⟨⟨"Player", "Struct", none, .struct []⟩,
      List.mem_cons_of_mem _ List.mem_cons_self, rfl, trivial⟩
  · rw [hf]
    exact .inl ⟨.array, rfl⟩

/-- A field of a union that comes down to a struct: the union has no definition. -/
theorem reference_dangles_struct_union :
    let s : Schema := ⟨"Unions", [⟨"U", "Struct", none, .union []⟩,
      ⟨"S", "Struct", none, .struct [⟨"f", "U", false, none, none⟩]⟩]⟩
    ∃ d, ofSchema s = .ok d ∧
      ¬ ∀ x, Refers d.toJson x → ∃ n, x = .str (Draft.pointer n) ∧
        ((∃ b : BaseType, b.name = n) ∨ n ∈ Entries.names d.definitions) := by
  refine ⟨_, rfl, fun hall => ?_⟩
  obtain ⟨n, hn, hresolves⟩ := hall _ (refers_toJson_iff.2 ⟨"U", by decide, rfl⟩)
  obtain rfl : "U" = n := (String.append_right_inj "#/definitions/").1 (Json.str.inj hn)
  rcases hresolves with ⟨b, hb⟩ | hname
  · exact absurd hb (by cases b <;> decide)
  · exact absurd hname (by decide)

end Document
end InterfaceSchema
