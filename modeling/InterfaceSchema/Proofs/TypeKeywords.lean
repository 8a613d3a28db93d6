import InterfaceSchema.Proofs.LetterCase
import InterfaceSchema.Proofs.Subschemas

/-!
# What schemas say for `type`

The words that the schemas of a document say for `type` are of three kinds: types of the draft,
marks on references that have no schema (`Registry.TypeWord` for these two), and the small names
of base types, which only definitions of arrays have.

* `element_type`, `content_type`: what a collection holds and what a field is say words of the
  first two kinds.
* `body_type`: so do definitions, other than those of types that are declared as arrays.
* `type_keywords`: so do all schemas of a document, with the same exception; and the definition of
  an array says the small name of the base type of its supertype.
-/

namespace InterfaceSchema
namespace Draft

/-- What an element says for `type`. -/
def Element.type? : Element → Option String
  | .ref _           => none
  | .string | .byte  => some "string"
  | .integer _       => some "integer"
  | .unmapped name   => some ("_" ++ name ++ "_")

/-- What a property says for `type`. -/
def Content.type? : Content → Option String
  | .element e => e.type?
  | .array _   => some "array"
  | .object _  => some "object"

/-- What a definition says for `type`. -/
def Body.type? : Body → Option String
  | .struct .. | .enum _ => none
  | .array type _ => some type
  | .object _     => some "object"
  | .text ..      => some "string"

/-- A property, or what its collection holds, says the word for `type`. -/
def Content.HasWord (c : Content) (word : String) : Prop :=
  c.type? = some word ∨ ∃ key e, c.held? = some (key, e) ∧ e.type? = some word

@[simp]
theorem Content.hasWord_element_iff {e : Element} {word : String} :
    (Content.element e).HasWord word ↔ e.type? = some word := by
  simp [HasWord, type?, held?]

theorem Element.hasKeyword_type_iff {e : Element} {x : Json} :
    HasKeyword e.toJson "type" x ↔ ∃ word, e.type? = some word ∧ x = .str word := by
  rw [toJson, hasKeyword_obj_iff]
  cases e <;> simp [members, type?, mem_member?_iff]

theorem Property.hasKeyword_type_iff {p : Property} {x : Json} :
    HasKeyword p.toJson "type" x ↔ ∃ word, p.content.type? = some word ∧ x = .str word := by
  obtain ⟨description, content⟩ := p
  rw [toJson, hasKeyword_obj_iff]
  cases content with
  | element e =>
      -- the members of the element stand among those of the property
      rw [Content.type?, ← Element.hasKeyword_type_iff, Element.toJson, hasKeyword_obj_iff]
      simp [Content.members, mem_member?_iff]
  | array held | object held => simp [Content.members, Content.type?, mem_member?_iff]

theorem Definition.hasKeyword_type_iff {v : Definition} {x : Json} :
    HasKeyword v.toJson "type" x ↔ ∃ word, v.body.type? = some word ∧ x = .str word := by
  obtain ⟨description, body⟩ := v
  rw [toJson, hasKeyword_obj_iff]
  cases body <;> simp [Body.members, Body.type?, mem_member?_iff]

end Draft

open Draft (Element Content Property Body Definition SchemaAt HasKeyword)

theorem Document.not_hasKeyword_type {d : Document} {x : Json} :
    ¬ HasKeyword d.toJson "type" x := by
  rw [toJson_eq, Draft.hasKeyword_obj_iff]
  by_cases hnil : d.definitions = [] <;> simp [hnil]

/-! ### The words of one type -/

namespace Registry
variable {reg : Registry}

/-- The name stands in the schema as what a field is or holds, or as what a declared collection
holds. -/
inductive Mentions (reg : Registry) : String → Prop where
  | fieldType {t : TypeDef} {fields : List Field} {f : Field} (ht : t ∈ reg.types)
      (hform : t.form = .struct fields) (hf : f ∈ fields) : Mentions reg f.type
  | fieldItems {t : TypeDef} {fields : List Field} {f : Field} {items : String}
      (ht : t ∈ reg.types) (hform : t.form = .struct fields) (hf : f ∈ fields)
      (hitems : nonEmpty? f.items = some items) : Mentions reg items
  | held {t : TypeDef} {items : String} (ht : t ∈ reg.types)
      (hform : t.form = .array items ∨ t.form = .map items) (hany : items ≠ anyName) :
      Mentions reg items

/-- A type of the draft, or the mark on a reference that stands in the schema. -/
def TypeWord (reg : Registry) (word : String) : Prop :=
  word ∈ ["string", "integer", "array", "object"] ∨
    ∃ reference, reg.Mentions reference ∧ word = "_" ++ reference ++ "_"

/-- What a search of a chain comes to is what is at its end, or what one of the types is for it. -/
theorem eq_of_search {links : List TypeDef} {pick : TypeDef → Option Element} {top e : Element}
    (h : (links.findSome? pick).getD top = e) : e = top ∨ ∃ t ∈ links, pick t = some e := by
  cases hfound : links.findSome? pick with
  | none =>
      rw [hfound] at h
      exact .inl h.symm
  | some e' =>
      rw [hfound] at h
      obtain ⟨t, ht, hpick⟩ := List.exists_of_findSome?_eq_some hfound
      exact .inr ⟨t, ht, h ▸ hpick⟩

/-- A type on the chain marks the reference that the search is for, and no other. -/
theorem nearest?_type {t : TypeDef} {reference word : String} {base : BaseType} {e : Element}
    (h : t.nearest? reference base = some e) (hword : e.type? = some word) :
    word = "_" ++ reference ++ "_" := by
  rw [TypeDef.nearest?] at h
  cases hform : t.form with
  | struct _ | enum _ | map _ | array _ =>
      simp only [hform] at h
      cases h
      cases hword
  | text _ | bare =>
      simp only [hform] at h
      split at h
      · cases h
        cases hword
      · cases h
  | union _ =>
      simp only [hform] at h
      cases h
      exact (Option.some.inj hword).symm

theorem nearestTextAt_type {t : TypeDef} {e : Element} (h : nearestTextAt t = some e) :
    e.type? = none := by
  rw [nearestTextAt] at h
  split at h
  · split at h
    · cases h
      rfl
    · cases h
  · cases h

theorem nearestText_type {name word : String} {links : List TypeDef} {base : BaseType}
    (h : reg.Ends name links (.ok base)) {e : Element} (he : reg.nearestText name = .ok e)
    (hword : e.type? = some word) : word = "string" := by
  rw [nearestText_of_ends h] at he
  rcases eq_of_search (Except.ok.inj he) with rfl | ⟨t, -, hpick⟩
  · exact (Option.some.inj hword).symm
  · rw [nearestTextAt_type hpick] at hword
    cases hword

/-- **What a collection holds** is a string or an integer, or is marked with its reference. -/
theorem element_type {format : IntegerFormat} {reference word : String} {e : Element}
    (h : reg.element format reference = .ok e) (hword : e.type? = some word) :
    word ∈ ["string", "integer", "array", "object"] ∨ word = "_" ++ reference ++ "_" := by
  obtain ⟨base, links, hends⟩ := exists_element_iff.1 ⟨e, h⟩
  rw [element, baseOf_of_ends hends] at h
  cases base with
  | string => exact .inl (by simp [nearestText_type hends h hword])
  | int8 | int16 | int32 | int64 =>
      cases h
      cases hword
      exact .inl (by simp)
  | _ =>
      have h := (nearest_of_ends hends).symm.trans h
      rcases eq_of_search (Except.ok.inj h) with rfl | ⟨t, -, hpick⟩
      · cases hword
      · exact .inr (nearest?_type hpick hword)

theorem elements_type {format : IntegerFormat} {reference : Option String} {word : String}
    {e : Element} (h : reg.elements format reference = .ok (some e))
    (hmentions : ∀ items, reference = some items → items ≠ anyName → reg.Mentions items)
    (hword : e.type? = some word) : reg.TypeWord word := by
  cases reference with
  | none => cases h
  | some items =>
      rw [elements] at h
      split at h
      · cases h
      · next hany =>
          obtain ⟨e', he, hsome⟩ := map_eq_ok_iff.1 h
          obtain rfl := Option.some.inj hsome
          rcases element_type he hword with hplain | hmark
          · exact .inl hplain
          · exact .inr ⟨items, hmentions items rfl hany, hmark⟩

theorem form_of_itemsAs? {t : TypeDef} {base : BaseType} {items : String}
    (h : t.itemsAs? base = some items) : t.form = .array items ∨ t.form = .map items := by
  unfold TypeDef.itemsAs? at h
  split at h
  · next hform => exact .inl (Option.some.inj h ▸ hform)
  · next hform => exact .inr (Option.some.inj h ▸ hform)
  · cases h

theorem mentions_of_declaredItems? {name items : String} {base : BaseType}
    (h : reg.declaredItems? name base = some items) (hany : items ≠ anyName) :
    reg.Mentions items := by
  unfold declaredItems? at h
  split at h
  · next t ht => exact .held (mem_of_find ht) (form_of_itemsAs? h) hany
  · cases h

/-- What counts as held by a field stands in the schema: in the field, or in the declaration of
its type. -/
theorem mentions_of_held {t : TypeDef} {fields : List Field} {f : Field} {base : BaseType}
    {items : String} (ht : t ∈ reg.types) (hform : t.form = .struct fields) (hf : f ∈ fields)
    (hitems : (nonEmpty? f.items).or (reg.declaredItems? f.type base) = some items)
    (hany : items ≠ anyName) : reg.Mentions items := by
  rcases Option.or_eq_some_iff.1 hitems with hown | ⟨-, hdeclared⟩
  · exact .fieldItems ht hform hf hown
  · exact mentions_of_declaredItems? hdeclared hany

/-- **What a field is, and what it holds**, is of the draft or marked with a reference. -/
theorem content_type {t : TypeDef} {fields : List Field} {f : Field} {c : Content} {word : String}
    (ht : t ∈ reg.types) (hform : t.form = .struct fields) (hf : f ∈ fields)
    (h : reg.content f = .ok c)
    (hword : c.HasWord word) : reg.TypeWord word := by
  rcases reg.reaches_or_fails f.type with ⟨base, hb⟩ | ⟨e, he⟩
  · obtain ⟨m, hm, hbase⟩ := find_of_reaches hb
    simp only [content, hm, hbase, itemsAs?_of_find hm] at h
    cases base with
    | array | map =>
        obtain ⟨held, hheld, rfl⟩ := map_eq_ok_iff.1 h
        rcases hword with hword | ⟨key, e, he, hword⟩
        · cases hword
          exact .inl (by simp)
        · obtain ⟨e', rfl, hpair⟩ := Option.map_eq_some_iff.1 he
          cases hpair
          exact elements_type hheld (fun _ => mentions_of_held ht hform hf) hword
    | string =>
        obtain ⟨links, hends⟩ := hb
        obtain ⟨e, he, rfl⟩ := map_eq_ok_iff.1 h
        exact .inl (by simp [nearestText_type hends he (Content.hasWord_element_iff.1 hword)])
    | int8 | int16 | int32 | int64 =>
        cases h
        cases Content.hasWord_element_iff.1 hword
        exact .inl (by simp)
    | struct | enum =>
        cases h
        cases Content.hasWord_element_iff.1 hword
    | _ =>
        cases h
        have hmark := Option.some.inj (Content.hasWord_element_iff.1 hword)
        exact .inr ⟨f.type, .fieldType ht hform hf, hmark.symm⟩
  · rw [content_of_fails he] at h
    cases h

/-- **What a definition says** is of the draft, unless its type is declared as an array. -/
theorem body_type {t : TypeDef} {body : Body} {word : String} (h : reg.body t = .ok (some body))
    (hword : body.type? = some word) : reg.TypeWord word ∨ ∃ items, t.form = .array items := by
  cases body_eq_ok_iff.1 h with
  | struct _ _ | enum _ => cases hword
  | array hform _ _ => exact .inr ⟨_, hform⟩
  | map _ _ | text _ _ | structAlias _ _ =>
      cases hword
      exact .inl (.inl (by simp))

/-- The definition of an array says the small name of the base type of its supertype. -/
theorem body_type_of_array {t : TypeDef} {o : Option Body} {items : String}
    (h : reg.body t = .ok o) (hform : t.form = .array items) :
    ∃ body b, o = some body ∧ reg.Reaches t.supertype b ∧
      body.type? = some (Text.lower b.name) := by
  cases body_eq_ok_iff.1 h with
  | array _ hb _ => exact ⟨_, _, rfl, hb, rfl⟩
  | struct hform' | map hform' | enum hform' | text hform' | plainText hform' | union hform'
  | structAlias hform' | plainAlias hform' => cases hform.symm.trans hform'

/-- What a declared collection holds is of the draft or marked with the items in its declaration. -/
theorem collection_type {t : TypeDef} {format : IntegerFormat} {items word : String} {e : Element}
    (ht : t ∈ reg.types) (hform : t.form = .array items ∨ t.form = .map items)
    (h : reg.elements format (some items) = .ok (some e)) (hword : e.type? = some word) :
    reg.TypeWord word := by
  refine elements_type h (fun items' hitems hany => ?_) hword
  obtain rfl := Option.some.inj hitems
  exact .held ht hform hany

theorem body_held_type {t : TypeDef} {body : Body} {key word : String} {e : Element}
    (ht : t ∈ reg.types) (h : reg.body t = .ok (some body)) (he : body.held? = some (key, e))
    (hword : e.type? = some word) : reg.TypeWord word := by
  cases body_eq_ok_iff.1 h with
  | struct _ _ | enum _ | text _ _ | structAlias _ _ => cases he
  | array hform _ hheld =>
      obtain ⟨e', rfl, hpair⟩ := Option.map_eq_some_iff.1 he
      cases hpair
      exact collection_type ht (.inl hform) hheld hword
  | map hform hheld =>
      obtain ⟨e', rfl, hpair⟩ := Option.map_eq_some_iff.1 he
      cases hpair
      exact collection_type ht (.inr hform) hheld hword

theorem body_property_type {t : TypeDef} {body : Body} {name word : String} {p : Property}
    (ht : t ∈ reg.types) (h : reg.body t = .ok (some body)) (hp : (name, p) ∈ body.properties)
    (hword : p.content.HasWord word) : reg.TypeWord word := by
  cases body_eq_ok_iff.1 h with
  | struct hform hps =>
      obtain ⟨before, f, after, rfl, rfl, hproperty, -⟩ := (mem_properties_iff hps).1 hp
      obtain ⟨c, hc, rfl⟩ := map_eq_ok_iff.1 hproperty
      exact content_type ht hform (by simp) hc hword
  | array _ _ _ | map _ _ | enum _ | text _ _ | structAlias _ _ => cases hp

end Registry

/-! ### The words of a document -/

namespace Document

/-- **A schema in a document says a word of the draft or marks a reference**, if it is not the
definition of an array. -/
theorem typeWord_of_hasKeyword {s : Schema} {d : Document} (h : ofSchema s = .ok d)
    {path : List String} {part x : Json} (hpart : SchemaAt d.toJson path part)
    (hx : HasKeyword part "type" x) :
    (∃ word, (Registry.ofSchema s).TypeWord word ∧ x = .str word) ∨
      ∃ t items, s.Stands t ∧ t.form = .array items ∧ path = ["definitions", t.name] := by
  rcases schemaAt_iff.1 hpart with ⟨-, rfl⟩ | ⟨name, v, rest, hv, rfl, hwithin⟩
  · exact absurd hx not_hasKeyword_type
  · obtain ⟨t, hstands, rfl, hconvert⟩ := (mem_definitions_iff h).1 hv
    have ht : t ∈ (Registry.ofSchema s).types := hstands.mem
    have hbody := body_of_convert hconvert
    rcases Draft.Definition.schemaAt_iff.1 hwithin with
      ⟨rfl, rfl⟩ | ⟨key, e, he, rfl, rfl⟩ | ⟨field, p, rest, hp, rfl, hinner⟩
    · obtain ⟨word, hword, rfl⟩ := Draft.Definition.hasKeyword_type_iff.1 hx
      rcases Registry.body_type hbody hword with htype | ⟨items, hform⟩
      · exact .inl ⟨word, htype, rfl⟩
      · exact .inr ⟨t, items, hstands, hform, rfl⟩
    · obtain ⟨word, hword, rfl⟩ := Draft.Element.hasKeyword_type_iff.1 hx
      exact .inl ⟨word, Registry.body_held_type ht hbody he hword, rfl⟩
    · refine .inl ?_
      rcases Draft.Property.schemaAt_iff.1 hinner with ⟨-, rfl⟩ | ⟨key, e, he, -, rfl⟩
      · obtain ⟨word, hword, rfl⟩ := Draft.Property.hasKeyword_type_iff.1 hx
        exact ⟨word, Registry.body_property_type ht hbody hp (.inl hword), rfl⟩
      · obtain ⟨word, hword, rfl⟩ := Draft.Element.hasKeyword_type_iff.1 hx
        exact ⟨word, Registry.body_property_type ht hbody hp (.inr ⟨key, e, he, hword⟩), rfl⟩

/-- The definition of an array stands in the document, and says the small name of the base type of
its supertype and nothing else. -/
theorem hasKeyword_type_of_array {s : Schema} {d : Document} (h : ofSchema s = .ok d) {t : TypeDef}
    {items : String} (hstands : s.Stands t) (hform : t.form = .array items) :
    ∃ b part, (Registry.ofSchema s).Reaches t.supertype b ∧
      SchemaAt d.toJson ["definitions", t.name] part ∧
      ∀ x, HasKeyword part "type" x ↔ x = .str (Text.lower b.name) := by
  have hdefines : (Registry.ofSchema s).Defines t := by
    rw [Registry.Defines, hform]
    trivial
  obtain ⟨v, hv⟩ := exists_convert_of_defines h hstands.mem hdefines
  obtain ⟨body, b, hbody, hb, htype⟩ := Registry.body_type_of_array (body_of_convert hv) hform
  obtain rfl := Option.some.inj hbody
  refine ⟨b, v.toJson, hb, ?_, fun x => ?_⟩
  · exact schemaAt_iff.2
      (.inr ⟨t.name, v, [], (mem_definitions_iff h).2 ⟨t, hstands, rfl, hv⟩, rfl, .whole⟩)
  · rw [Draft.Definition.hasKeyword_type_iff, htype]
    simp

/-- **Every `type` in a document** is a type of the draft or the mark on a reference that stands
in the schema, other than in the definitions of arrays.  These say the small name of the base type
that their supertype comes down to, and so `array` exactly when this is the array. -/
theorem type_keywords {s : Schema} {d : Document} (h : ofSchema s = .ok d) :
    (∀ path part x, SchemaAt d.toJson path part → HasKeyword part "type" x →
      (∃ word, (Registry.ofSchema s).TypeWord word ∧ x = .str word) ∨
        ∃ t items, s.Stands t ∧ t.form = .array items ∧ path = ["definitions", t.name]) ∧
      ∀ t items, s.Stands t → t.form = .array items →
        ∃ b part, (Registry.ofSchema s).Reaches t.supertype b ∧
          SchemaAt d.toJson ["definitions", t.name] part ∧
          (∀ x, HasKeyword part "type" x ↔ x = .str (Text.lower b.name)) ∧
          (HasKeyword part "type" (.str "array") ↔ b = .array) := by
  refine ⟨fun path part x => typeWord_of_hasKeyword h, fun t items hstands hform => ?_⟩
  obtain ⟨b, part, hb, hpart, hkeyword⟩ := hasKeyword_type_of_array h hstands hform
  refine ⟨b, part, hb, hpart, hkeyword, ?_⟩
  rw [hkeyword, Json.str.injEq, eq_comm, BaseType.lower_name_eq_array_iff]

/-- An array whose supertype is a struct, and a list of a union. -/
theorem type_keywords_struct_array :
    let s : Schema := ⟨"Odd", [⟨"A", "Struct", none, .array "Int32"⟩,
      ⟨"L", "Array", none, .array "U"⟩, ⟨"U", "Union", none, .union ["A"]⟩,
      ⟨"S", "Struct", none, .struct [⟨"type", "Bool", false, none, none⟩]⟩]⟩
    ∃ d, ofSchema s = .ok d ∧
      (∀ path part x, SchemaAt d.toJson path part → HasKeyword part "type" x →
        (∃ word, (Registry.ofSchema s).TypeWord word ∧ x = .str word) ∨
          ∃ t items, s.Stands t ∧ t.form = .array items ∧ path = ["definitions", t.name]) ∧
      ∀ t items, s.Stands t → t.form = .array items →
        ∃ b part, (Registry.ofSchema s).Reaches t.supertype b ∧
          SchemaAt d.toJson ["definitions", t.name] part ∧
          (∀ x, HasKeyword part "type" x ↔ x = .str (Text.lower b.name)) ∧
          (HasKeyword part "type" (.str "array") ↔ b = .array) :=
  ⟨_, rfl, type_keywords rfl⟩

/-- An array whose supertype is a struct: its definition says `struct`, which is no type of the
draft and marks nothing. -/
theorem type_of_struct_array :
    let s : Schema := ⟨"Odd", [⟨"A", "Struct", none, .array "String"⟩]⟩
    ∃ d, ofSchema s = .ok d ∧
      ¬ ((∀ path part x, SchemaAt d.toJson path part → HasKeyword part "type" x →
          ∃ word, (Registry.ofSchema s).TypeWord word ∧ x = .str word) ∧
        ∀ t items, s.Stands t → t.form = .array items →
          ∃ part, SchemaAt d.toJson ["definitions", t.name] part ∧
            HasKeyword part "type" (.str "array")) := by
  intro s
  refine ⟨_, rfl, fun ⟨hwords, _⟩ => ?_⟩
  obtain ⟨b, part, hb, hpart, hkeyword⟩ :=
    hasKeyword_type_of_array (s := s) rfl ⟨[], [], rfl, by simp⟩ rfl
  obtain rfl : b = .struct := hb.unique (Registry.baseOf_eq_ok_iff.1 rfl)
  obtain ⟨word, hword, hx⟩ := hwords _ _ _ hpart ((hkeyword _).2 rfl)
  obtain rfl : "struct" = word := by
    rw [← Json.str.inj hx, BaseType.lower_name]
    decide
  rcases hword with hplain | ⟨reference, -, hmark⟩
  · exact absurd hplain (by decide)
  · have hfirst := congrArg (·.toList.head?) hmark
    simp at hfirst

end Document
end InterfaceSchema
