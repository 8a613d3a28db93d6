import InterfaceSchema.Proofs.Spellings
import InterfaceSchema.Proofs.TopValue

/-!
# The contents of schemas

What a schema's text holds, whatever the text: a name and entries, each with any of the members
that entries may have.  The text may be any spelling of it (`Shape.Spells`) with any blanks, and
what is read of it hangs on the content alone.

* `FormMembers.form_eq`: the form of an entry is told by the first of its members that counts.
* `Schema.read_spelled`: what is read of any text of a content.
-/

namespace InterfaceSchema

open Json (Shape Members Outline Scalar Key)
open InterfaceSchema.Text (Bytes)

/-! ### Contents -/

/-- The content of an entry: any of its optional members may be there. -/
structure TypeDef.Content where
  supertype : String
  name : String
  comment : Option String
  members : FormMembers

/-- The content of a schema. -/
structure Schema.Content where
  name : String
  types : List TypeDef.Content

def Field.record (f : Field) : Field.shape.Val :=
  (f.name, f.type, f.optional, f.items, f.comment, ())

def symbolRecord (symbol : String) : symbolShape.Val := (symbol, ())

def TypeDef.Content.record (t : TypeDef.Content) : TypeDef.shape.Val :=
  (t.supertype, t.name, t.comment, t.members.fields.map (List.map Field.record),
    t.members.elements.map (List.map symbolRecord), t.members.variants, t.members.keys,
    t.members.items, t.members.pattern, t.members.values, t.members.minSize, t.members.maxSize, ())

def Schema.Content.record (s : Schema.Content) : Schema.shape.Val :=
  (s.name, List.map TypeDef.Content.record s.types, ())

/-- The forms that members tell of, in the order in which they count. -/
def FormMembers.told (m : FormMembers) : List (Option Form) :=
  [m.fields.map .struct, m.elements.map .enum, m.variants.map .union,
    m.keys.map fun _ => .map (m.items.getD "Any"), m.items.map .array,
    if m.pattern = none ∧ m.values = none ∧ m.minSize = none ∧ m.maxSize = none then none
    else some (.text ⟨m.pattern, m.values.getD [], m.minSize, m.maxSize⟩)]

/-- **The form is told by the first member that is there.** -/
theorem FormMembers.form_eq (m : FormMembers) : m.form = (m.told.findSome? id).getD .bare := by
  obtain ⟨fields, elements, variants, keys, items, pattern, values, minSize, maxSize⟩ := m
  match fields, elements, variants, keys, items with
  | some _, _, _, _, _ | none, some _, _, _, _ | none, none, some _, _, _
  | none, none, none, some _, _ | none, none, none, none, some _ => rfl
  | none, none, none, none, none =>
      match pattern, values, minSize, maxSize with
      | none, none, none, none | some _, _, _, _ | none, some _, _, _ | none, none, some _, _
      | none, none, none, some _ => rfl

/-- The declared type of an entry. -/
def TypeDef.Content.typeDef (t : TypeDef.Content) : TypeDef where
  name := t.name
  supertype := t.supertype
  comment := t.comment
  form := (t.members.told.findSome? id).getD .bare

/-- The members of an entry, written and taken back. -/
theorem FormMembers.ofRecord_record (m : FormMembers) :
    ({ m with
      fields := (m.fields.map (List.map Field.record)).map (List.map Field.ofRecord)
      elements := (m.elements.map (List.map symbolRecord)).map (List.map symbolOfRecord) } :
        FormMembers) = m := by
  have hfields : Field.ofRecord ∘ Field.record = id := rfl
  have hsymbols : symbolOfRecord ∘ symbolRecord = id := rfl
  simp [Option.map_map, hfields, hsymbols]

/-- A type is read from the record of its content. -/
theorem TypeDef.ofRecord_record (t : TypeDef.Content) : ofRecord t.record = t.typeDef :=
  calc
    ofRecord t.record = ⟨t.name, t.supertype, t.comment, t.members.form⟩ :=
      congrArg (fun m : FormMembers => (⟨t.name, t.supertype, t.comment, m.form⟩ : TypeDef))
        (FormMembers.ofRecord_record t.members)
    _ = t.typeDef := by rw [FormMembers.form_eq, Content.typeDef]

/-- A schema is read from the record of its content. -/
theorem Schema.ofRecord_record (s : Schema.Content) :
    ofRecord s.record = ⟨s.name, s.types.map TypeDef.Content.typeDef⟩ := by
  have htypes : TypeDef.ofRecord ∘ TypeDef.Content.record = TypeDef.Content.typeDef :=
    funext TypeDef.ofRecord_record
  rw [← htypes, ← List.map_map]
  rfl

/-- No record of a schema has two members of one key. -/
theorem Schema.shape_distinct : Schema.shape.Distinct := by
  simp [Schema.shape, TypeDef.shape, Field.shape, symbolShape, Shape.Distinct, Members.Distinct,
    Members.keys]

/-- **What is read hangs on the content alone**, not on how its text spells it. -/
theorem Schema.read_spelled {content : Content} {o : Outline} {input : Bytes}
    (ho : shape.Spells content.record o) (hinput : o.Padded input) :
    read input = .ok ⟨content.name, content.types.map TypeDef.Content.typeDef⟩ := by
  cases hinput with
  | mk hw hx hw' =>
      have hvalue := Outline.after?_of_laid hx (Outline.ends_of_stops hw'.stops o)
      rw [← Json.Tree.after?_append hw] at hvalue
      refine read_eq_ok hvalue ?_
      rw [Shape.ofTree_of_spells shape_distinct ho, ← ofRecord_record]
      rfl

/-! ### A content and a text of it -/

namespace Json

namespace Members
variable {key : String} {p : Presence} {s : Shape} {ms : Members} {r : ms.Val}
  {known : List (Key × Outline)}

/-- A member is spelled in front of the others. -/
theorem SpellsNamed.keep {a : s.Val} {o : Outline} (ha : s.Spells a o)
    (h : ms.SpellsNamed r known) :
    (cons key p s ms).SpellsNamed (a, r) ((.ofText key, o) :: known) :=
  .inl ⟨_, known, rfl, Key.spells_ofText key, ha, h⟩

/-- A member that is as if left out is left out. -/
theorem SpellsNamed.omit (hp : p ≠ .required) (h : ms.SpellsNamed r known) :
    (cons key p s ms).SpellsNamed (s.blank, r) known :=
  .inr ⟨hp, rfl, h⟩

end Members

end Json

/-- A struct that is written as a list, and a map whose members stand the other way round and with
another one among them; the map's comment is null, and so are the members that the struct has
not. -/
def Schema.Content.sample : Content where
  name := "a\"b"
  types := [
    { supertype := "Struct", name := "P", comment := some "\n"
      members := ⟨some [⟨"f", "M", true, none, none⟩], none, none, none, none, none, none,
        some (-1), none⟩ },
    { supertype := "Map", name := "M", comment := none
      members := ⟨none, none, none, some "K", none, none, none, none, none⟩ }]

/-- A text of it, without its layout. -/
def Schema.Content.sampleText : Json :=
  .obj [("x", .arr [.null]),
    ("types", .arr [
      .arr [.str "Struct", .str "P", .str "\n",
        .arr [.obj [("optional", .bool true), ("type", .str "M"), ("name", .str "f")]],
        .null, .null, .null, .null, .null, .null, .int (-1), .null],
      .obj [("y", .obj []), ("keys", .str "K"), ("comment", .null), ("name", .str "M"),
        ("type", .str "Map")]]),
    ("name", .str "a\"b")]

theorem Schema.read_spelled_sample :
    Schema.shape.Spells Content.sample.record Content.sampleText.outline ∧
      read (Text.bytes Content.sampleText.render) = .ok ⟨"a\"b",
        [⟨"P", "Struct", some "\n", .struct [⟨"f", "M", true, none, none⟩]⟩,
          ⟨"M", "Map", none, .map "Any"⟩]⟩ := by
  have hnull : ∀ s : Shape, (Shape.nullable s).Spells none Json.null.outline :=
    fun _ => ⟨_, rfl, rfl⟩
  have htext : ∀ t, Shape.text.Spells t (Json.str t).outline := fun t =>
    ⟨_, rfl, Scalar.isText_ofText t⟩
  have hother : ∀ (key : String) (o : Outline) (keys : List String), key ∉ keys →
      ∀ m ∈ [(Key.ofText key, o)], ∃ key, m.1.Spells key ∧ key ∉ keys := by
    intro key o keys hkey m hm
    obtain rfl := List.mem_singleton.1 hm
    exact ⟨key, Key.spells_ofText key, hkey⟩
  have hfield : Field.shape.Spells (Field.record ⟨"f", "M", true, none, none⟩)
      (Json.obj [("optional", .bool true), ("type", .str "M"), ("name", .str "f")]).outline :=
    .inl ⟨_, Json.memberOutlines [("name", .str "f"), ("type", .str "M"), ("optional", .bool true)],
      [], rfl, List.reverse_perm (Json.memberOutlines [("name", .str "f"), ("type", .str "M"),
        ("optional", .bool true)]),
      .keep (htext _) <| .keep (htext _) <| .keep ⟨_, rfl, rfl⟩ <| .omit (by decide) <|
        .omit (by decide) rfl, by simp⟩
  have hstruct : TypeDef.shape.Spells (TypeDef.Content.record ⟨"Struct", "P", some "\n",
        ⟨some [⟨"f", "M", true, none, none⟩], none, none, none, none, none, none, some (-1), none⟩⟩)
      (Json.arr [.str "Struct", .str "P", .str "\n",
        .arr [.obj [("optional", .bool true), ("type", .str "M"), ("name", .str "f")]],
        .null, .null, .null, .null, .null, .null, .int (-1), .null]).outline :=
    .inr ⟨_, rfl, _, _, rfl, htext _, _, _, rfl, htext _, _, _, rfl, htext _, _, _, rfl,
      ⟨_, rfl, .cons hfield .nil⟩, _, _, rfl, hnull _, _, _, rfl, hnull _, _, _, rfl, hnull _,
      _, _, rfl, hnull _, _, _, rfl, hnull _, _, _, rfl, hnull _, _, _, rfl, ⟨_, rfl, rfl⟩,
      _, _, rfl, hnull _, rfl⟩
  have hmap : TypeDef.shape.Spells (TypeDef.Content.record ⟨"Map", "M", none,
        ⟨none, none, none, some "K", none, none, none, none, none⟩⟩)
      (Json.obj [("y", .obj []), ("keys", .str "K"), ("comment", .null), ("name", .str "M"),
        ("type", .str "Map")]).outline :=
    .inl ⟨_, Json.memberOutlines [("type", .str "Map"), ("name", .str "M"), ("comment", .null),
        ("keys", .str "K")], _, rfl,
      List.reverse_perm (Json.memberOutlines [("type", .str "Map"), ("name", .str "M"),
        ("comment", .null), ("keys", .str "K"), ("y", .obj [])]),
      .keep (htext _) <| .keep (htext _) <| .keep (hnull _) <| .omit (by decide) <|
        .omit (by decide) <| .omit (by decide) <| .keep (htext _) <| .omit (by decide) <|
        .omit (by decide) <| .omit (by decide) <| .omit (by decide) <| .omit (by decide) rfl,
      hother "y" _ _ (by decide)⟩
  have hspells : Schema.shape.Spells Content.sample.record Content.sampleText.outline :=
    .inl ⟨_, [_, _], _, rfl, List.reverse_perm [_, _, _],
      .keep (htext _) <| .keep ⟨_, rfl, .cons hstruct (.cons hmap .nil)⟩ rfl,
      hother "x" _ _ (by decide)⟩
  exact ⟨hspells, read_spelled hspells (Json.padded_render _)⟩

end InterfaceSchema
