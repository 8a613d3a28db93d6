import InterfaceSchema.Proofs.EmptyTexts
import InterfaceSchema.Proofs.Omission
import InterfaceSchema.Proofs.TopValue

/-!
# Empty texts left out

The comments of types and fields, the items of fields and the patterns of types may be left out of
a schema's text where they are empty (`IdleText`).  What is read is then the schema without these
texts (`Schema.Trimmed`), or there is the same flaw as before.

* `FormMembers.Trimmed.form_eq`: the form of a type is told as before, or not at all any more.
* `Schema.read_of_omits`: what is read of both texts.
* `empty_texts_omitted`: what becomes of the schema's document.
* `empty_texts_not_omitted`: where it is not what it was.
-/

namespace InterfaceSchema

open Json (Shape Members Tree Together Located)
open InterfaceSchema.Text (Bytes)

/-- The texts that count as not given when they are empty. -/
def IdleText (title key : String) : Prop :=
  title = "RawType" ∧ (key = "comment" ∨ key = "pattern") ∨
    title = "Field" ∧ (key = "items" ∨ key = "comment")

instance (title key : String) : Decidable (IdleText title key) :=
  inferInstanceAs (Decidable (_ ∨ _))

/-- Empty texts may be left out of a schema wherever they are idle. -/
theorem Schema.shape_admits : Schema.shape.Admits IdleText := by
  simp [Schema.shape, TypeDef.shape, Field.shape, symbolShape, Shape.Admits, Members.Admits,
    IdleText]

/-- A text that was left out for being empty did not count. -/
theorem nonEmpty?_of_omitted {text text' : Option String}
    (h : text' = text ∨ text = some "" ∧ text' = none) : nonEmpty? text' = nonEmpty? text := by
  rcases h with rfl | ⟨rfl, rfl⟩ <;> rfl

/-- Fields that differ in empty texts are the same pruned. -/
theorem Field.of_lacks {r r' : Field.shape.Val} (h : Field.shape.Lacks IdleText r r') :
    (ofRecord r').pruned = (ofRecord r).pruned := by
  obtain ⟨name, type, optional, items, comment, ⟨⟩⟩ := r
  obtain ⟨name', type', optional', items', comment', ⟨⟩⟩ := r'
  obtain ⟨hname, htype, hoptional, hitems, hcomment, -⟩ := h
  have hn : name' = name := Shape.LacksAt.eq (s := .text) trivial (by decide) hname
  have ht : type' = type := Shape.LacksAt.eq (s := .text) trivial (by decide) htype
  have ho : optional' = optional := Shape.LacksAt.eq (s := .flag) trivial (by decide) hoptional
  simp only [ofRecord, pruned, hn, ht, ho, nonEmpty?_of_omitted (Shape.LacksAt.text hitems),
    nonEmpty?_of_omitted (Shape.LacksAt.text hcomment)]

theorem Field.map_of_lacks {rs rs' : List Field.shape.Val}
    (h : List.Forall₂ (Field.shape.Lacks IdleText) rs rs') :
    (rs'.map ofRecord).map pruned = (rs.map ofRecord).map pruned := by
  rw [List.map_map, List.map_map]
  exact map_eq_of_forall₂ (h.imp fun _ _ => Field.of_lacks)

theorem Field.map_of_lacksAt {fields fields' : Option (List Field.shape.Val)}
    (h : (Shape.nullable (.list Field.shape)).LacksAt IdleText "RawType" "fields" fields fields') :
    (fields'.map (List.map ofRecord)).map (List.map pruned) =
      (fields.map (List.map ofRecord)).map (List.map pruned) := by
  rcases h with h | ⟨hidle, -⟩
  · have hrel : Option.Rel (List.Forall₂ (Field.shape.Lacks IdleText)) fields fields' := h
    cases hrel with
    | none => rfl
    | some hfields => exact congrArg some (Field.map_of_lacks hfields)
  · exact absurd hidle (by decide)

/-- The members `m'` tell what `m` do, but for empty texts. -/
structure FormMembers.Trimmed (m m' : FormMembers) : Prop where
  fields : m'.fields.map (List.map Field.pruned) = m.fields.map (List.map Field.pruned)
  elements : m'.elements = m.elements
  variants : m'.variants = m.variants
  keys : m'.keys = m.keys
  items : m'.items = m.items
  pattern : m'.pattern = m.pattern ∨ m.pattern = some "" ∧ m'.pattern = none
  values : m'.values = m.values
  minSize : m'.minSize = m.minSize
  maxSize : m'.maxSize = m.maxSize

/-- Without an empty pattern the form is told by another member, or not at all. -/
theorem FormMembers.form_without_pattern {m : FormMembers} (hpattern : m.pattern = some "") :
    ({ m with pattern := none } : FormMembers).form.pruned false = m.form.pruned false ∨
      ({ m with pattern := none } : FormMembers).form = .bare ∧
        ∃ c, m.form = .text c ∧ c.any = false := by
  obtain ⟨fields, elements, variants, keys, items, pattern, values, minSize, maxSize⟩ := m
  obtain rfl : pattern = some "" := hpattern
  match fields, elements, variants, keys, items with
  | some _, _, _, _, _ | none, some _, _, _, _ | none, none, some _, _, _
  | none, none, none, some _, _ | none, none, none, none, some _ => exact .inl rfl
  | none, none, none, none, none =>
      cases hmarks : values.isSome || minSize.isSome || maxSize.isSome with
      | true =>
          -- another constraint tells that it is a text
          have hform : FormMembers.form ⟨none, none, none, none, none, some "", values, minSize,
              maxSize⟩ = .text ⟨some "", values.getD [], minSize, maxSize⟩ := rfl
          have hform' : FormMembers.form ⟨none, none, none, none, none, none, values, minSize,
              maxSize⟩ = .text ⟨none, values.getD [], minSize, maxSize⟩ :=
            if_pos (by simpa using hmarks)
          have hempty : nonEmpty? (some "") = nonEmpty? none := rfl
          rw [hform, hform']
          simp [Form.pruned, Constraints.pruned, hempty]
      | false =>
          obtain ⟨⟨rfl, rfl⟩, rfl⟩ :
              (values = none ∧ minSize = none) ∧ maxSize = none := by simpa using hmarks
          exact .inr ⟨rfl, _, rfl, rfl⟩

/-- **A form is told as before**, or its only mark was an empty pattern. -/
theorem FormMembers.Trimmed.form_eq {m m' : FormMembers} (h : m.Trimmed m') :
    m'.form.pruned false = m.form.pruned false ∨
      m'.form = .bare ∧ ∃ c, m.form = .text c ∧ c.any = false := by
  obtain ⟨fields, _, _, _, _, pattern, _, _, _⟩ := m
  obtain ⟨fields', elements, variants, keys, items, pattern', values, minSize, maxSize⟩ := m'
  obtain ⟨hfields, rfl, rfl, rfl, rfl, hpattern, rfl, rfl, rfl⟩ := h
  cases fields with
  | some fields =>
      obtain ⟨fields', rfl, h⟩ :
          ∃ fs, fields' = some fs ∧ fs.map Field.pruned = fields.map Field.pruned := by
        simpa using hfields
      exact .inl (congrArg Form.struct h)
  | none =>
      obtain rfl : fields' = none := by simpa using hfields
      rcases hpattern with rfl | ⟨rfl, rfl⟩
      · exact .inl rfl
      · exact FormMembers.form_without_pattern
          (m := ⟨none, elements, variants, keys, items, some "", values, minSize, maxSize⟩) rfl

/-- A type that lacks empty texts is what is left of the type. -/
theorem TypeDef.trimmed_of_lacks {r r' : TypeDef.shape.Val}
    (h : TypeDef.shape.Lacks IdleText r r') : (ofRecord r).Trimmed (ofRecord r') := by
  obtain ⟨supertype, name, comment, fields, elements, variants, keys, items, pattern, values,
    minSize, maxSize, ⟨⟩⟩ := r
  obtain ⟨supertype', name', comment', fields', elements', variants', keys', items', pattern',
    values', minSize', maxSize', ⟨⟩⟩ := r'
  obtain ⟨hsupertype, hname, hcomment, hfields, helements, hvariants, hkeys, hitems, hpattern,
    hvalues, hminSize, hmaxSize, -⟩ := h
  have hs : supertype' = supertype := Shape.LacksAt.eq (s := .text) trivial (by decide) hsupertype
  have hn : name' = name := Shape.LacksAt.eq (s := .text) trivial (by decide) hname
  refine ⟨hn, hs, nonEmpty?_of_omitted (Shape.LacksAt.text hcomment),
    FormMembers.Trimmed.form_eq ?_⟩
  exact {
    fields := Field.map_of_lacksAt hfields
    elements := congrArg (Option.map (List.map symbolOfRecord)) <|
      Shape.LacksAt.eq (s := .nullable (.list symbolShape)) ⟨by decide, trivial, trivial⟩
        (by decide) helements
    variants := Shape.LacksAt.eq (s := .nullable (.list .text)) trivial (by decide) hvariants
    keys := Shape.LacksAt.eq (s := .nullable .text) trivial (by decide) hkeys
    items := Shape.LacksAt.eq (s := .nullable .text) trivial (by decide) hitems
    pattern := Shape.LacksAt.text hpattern
    values := Shape.LacksAt.eq (s := .nullable (.list .text)) trivial (by decide) hvalues
    minSize := Shape.LacksAt.eq (s := .nullable .integer) trivial (by decide) hminSize
    maxSize := Shape.LacksAt.eq (s := .nullable .integer) trivial (by decide) hmaxSize }

theorem TypeDef.forall₂_of_lacks {rs rs' : List TypeDef.shape.Val}
    (h : List.Forall₂ (TypeDef.shape.Lacks IdleText) rs rs') :
    List.Forall₂ Trimmed (rs.map ofRecord) (rs'.map ofRecord) := by
  rw [List.forall₂_map_left_iff, List.forall₂_map_right_iff]
  exact h.imp fun _ _ => trimmed_of_lacks

/-- The schema `s'` is `s` but for empty texts. -/
structure Schema.Trimmed (s s' : Schema) : Prop where
  name : s'.name = s.name
  types : List.Forall₂ TypeDef.Trimmed s.types s'.types

/-- So is a schema. -/
theorem Schema.trimmed_of_lacks {r r' : Schema.shape.Val} (h : Schema.shape.Lacks IdleText r r') :
    (ofRecord r).Trimmed (ofRecord r') := by
  obtain ⟨name, types, ⟨⟩⟩ := r
  obtain ⟨name', types', ⟨⟩⟩ := r'
  obtain ⟨hname, htypes, -⟩ := h
  have hn : name' = name := Shape.LacksAt.eq (s := .text) trivial (by decide) hname
  rcases htypes with htypes | ⟨hidle, -⟩
  · exact ⟨hn, TypeDef.forall₂_of_lacks htypes⟩
  · exact absurd hidle (by decide)

/-- **A schema is read together with what is left of it.** -/
theorem Schema.read_of_omits {v v' : Tree} {input input' rest rest' : Bytes}
    (hv : v.after? input = some rest) (hv' : v'.after? input' = some rest')
    (h : Schema.shape.Omits IdleText v v') :
    Together Schema.Trimmed ((read input).mapError Located.flaw)
      ((read input').mapError Located.flaw) := by
  rw [read_of_after? hv, read_of_after? hv']
  exact (Schema.shape.ofTree_of_omits shape_admits h).map fun _ _ => trimmed_of_lacks

/-- **Empty texts may be left out.**  A schema that cannot be read has the same fault without them,
at its place in the new text.  Otherwise the schema without them is of the same name and as many
types, and it has the same document, or fails alike, if only types over plain supertypes lose their
form.  Over no other supertype does a type that loses its form come to what it came to. -/
theorem Document.empty_texts_omitted {v v' : Tree} {input input' rest rest' : Bytes}
    (hv : v.after? input = some rest) (hv' : v'.after? input' = some rest')
    (h : Schema.shape.Omits IdleText v v') :
    (∀ e, Schema.read input = .error e →
      ∃ e', Schema.read input' = .error e' ∧ e'.path = e.path ∧ e'.cause = e.cause) ∧
    ∀ s, Schema.read input = .ok s → ∃ s', Schema.read input' = .ok s' ∧ s'.name = s.name ∧
      s'.types.length = s.types.length ∧
      ((∀ p ∈ s.types.zip s'.types, p.1.LosesForm p.2 →
          (Registry.ofSchema s).plain p.1.supertype = true) → ofSchema s' = ofSchema s) ∧
      ∀ p ∈ s.types.zip s'.types, p.1.LosesForm p.2 →
        (s'.convert p.2 = s.convert p.1 ↔
          (Registry.ofSchema s).plain p.1.supertype = true) := by
  have htogether := Schema.read_of_omits hv hv' h
  constructor
  · intro e he
    obtain ⟨e', he', hflaw⟩ := htogether.error_of_mapError he
    exact ⟨e', he', congrArg Json.Flaw.path hflaw, congrArg Json.Flaw.cause hflaw⟩
  · intro s hs
    obtain ⟨s', hs', hname, htypes⟩ := htogether.ok_of_mapError hs
    exact ⟨s', hs', hname, htypes.length_eq.symm, Schema.ofSchema_of_trimmed htypes,
      fun p hp => Schema.convert_eq_iff_of_losesForm htypes (List.forall₂_zip htypes hp)⟩

/-- The text of a schema with one type. -/
def oneType (members : String) : Bytes :=
  Text.bytes ("\x7b\"types\":[\x7b" ++ members ++ "\x7d]\x7d")

/-- A host without its empty comment and its empty pattern. -/
theorem Document.empty_texts_omitted_host :
    ∃ s s', Schema.read (oneType r#""type":"String","comment":"","name":"Host","pattern":"""#) =
        .ok s ∧ Schema.read (oneType r#""type":"String","name":"Host""#) = .ok s' ∧
        ofSchema s' = ofSchema s := by
  have hv : (Tree.object [(.ok "types", .list [.object [(.ok "type", .text "String"),
      (.ok "comment", .emptyText), (.ok "name", .text "Host"),
      (.ok "pattern", .emptyText)]])]).after?
        (oneType r#""type":"String","comment":"","name":"Host","pattern":"""#) = some [] := by
    decide +kernel
  have hv' : (Tree.object [(.ok "types", .list [.object [(.ok "type", .text "String"),
      (.ok "name", .text "Host")]])]).after? (oneType r#""type":"String","name":"Host""#) =
        some [] := by
    decide +kernel
  have htype : Shape.Omits IdleText TypeDef.shape
      (.object [(.ok "type", .text "String"), (.ok "comment", .emptyText),
        (.ok "name", .text "Host"), (.ok "pattern", .emptyText)])
      (.object [(.ok "type", .text "String"), (.ok "name", .text "Host")]) :=
    .inr (.inl ⟨_, _, rfl, rfl, .keep (.inl rfl) <| .drop (by decide) (by decide) (by decide) <|
      .keep (.inl rfl) <| .drop (by decide) (by decide) (by decide) .nil⟩)
  have h : Schema.shape.Omits IdleText _ _ := .inr (.inl ⟨_, _, rfl, rfl,
    .keep (.inr ⟨"types", rfl, .inr ⟨_, _, rfl, rfl, .cons htype .nil⟩⟩) .nil⟩)
  have hread : Schema.read (oneType r#""type":"String","name":"Host""#) =
      .ok ⟨"", [⟨"Host", "String", none, .bare⟩]⟩ := Schema.read_eq_ok hv' rfl
  obtain ⟨s', hs', -, -, hsame, -⟩ :=
    (empty_texts_omitted hv hv' h).2 _ (Schema.read_eq_ok hv rfl)
  obtain rfl := Except.ok.inj (hread.symm.trans hs')
  refine ⟨_, _, Schema.read_eq_ok hv rfl, hread, hsame fun p hp _ => ?_⟩
  obtain rfl := List.mem_singleton.1 hp
  rfl

/-- With its empty pattern a type loses its form, and over `Struct` it then has a definition.
Faults move with the text.  Of two comments none is left out: the second one is the fault. -/
theorem Document.empty_texts_not_omitted :
    (∃ s s', Schema.read (oneType r#""type":"Struct","name":"A","pattern":"""#) = .ok s ∧
      Schema.read (oneType r#""type":"Struct","name":"A""#) = .ok s' ∧
      ofSchema s = .ok ⟨[], []⟩ ∧ ofSchema s' = .ok ⟨[("A", ⟨none, .object none⟩)], []⟩) ∧
    (Schema.read (oneType r#""comment":"","type":0"#) =
        .error ⟨[.key "types", .item 0, .key "type"], .wrongKind (.integer 0) .text, 1, 32⟩ ∧
      Schema.read (oneType r#""type":0"#) =
        .error ⟨[.key "types", .item 0, .key "type"], .wrongKind (.integer 0) .text, 1, 19⟩) ∧
    Schema.read (oneType r#""comment":"","type":"Int8","name":"A","comment":"a""#) =
        .error ⟨[.key "types", .item 0], .repeated "comment", 1, 58⟩ ∧
      Schema.read (oneType r#""type":"Int8","name":"A","comment":"a""#) =
        .ok ⟨"", [⟨"A", "Int8", some "a", .bare⟩]⟩ := by
  have hpattern : Schema.read (oneType r#""type":"Struct","name":"A","pattern":"""#) =
      .ok ⟨"", [⟨"A", "Struct", none, .text ⟨some "", [], none, none⟩⟩]⟩ := by decide +kernel
  have hbare : Schema.read (oneType r#""type":"Struct","name":"A""#) =
      .ok ⟨"", [⟨"A", "Struct", none, .bare⟩]⟩ := by decide +kernel
  refine ⟨⟨_, _, hpattern, hbare, rfl, rfl⟩, ⟨?_, ?_⟩, ?_, ?_⟩ <;> decide +kernel

end InterfaceSchema
