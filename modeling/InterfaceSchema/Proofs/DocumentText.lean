import InterfaceSchema.Proofs.RoundTrip
import InterfaceSchema.Proofs.Subschemas

/-!
# The text of a document

Documents have no key twice in any of their objects: properties and definitions are kept under
their names, and the keywords of a schema are written one after the other.  And they nest six
brackets deep at most, which is far from what is refused.  So the text of a document is read back
to the document.

* `Document.fits_toJson`: every document is printed faithfully, and how deep it nests.
* `Document.text_reads_back`: what holds of the text of any value, and of every document's.
-/

namespace InterfaceSchema

open Draft
open InterfaceSchema.Text (Bytes)

namespace Json

theorem itemsFaithful_iff {vs : List Json} : ItemsFaithful vs ↔ ∀ v ∈ vs, v.Faithful := by
  induction vs with
  | nil => simp [ItemsFaithful]
  | cons v vs ih => rw [ItemsFaithful, ih, List.forall_mem_cons]

theorem membersFaithful_iff {ms : List (String × Json)} :
    MembersFaithful ms ↔ ∀ m ∈ ms, m.2.Faithful := by
  induction ms with
  | nil => simp [MembersFaithful]
  | cons m ms ih => rw [MembersFaithful, ih, List.forall_mem_cons]

theorem itemsLevels_le_iff {n : Nat} {vs : List Json} :
    itemsLevels vs ≤ n ↔ ∀ v ∈ vs, v.levels ≤ n := by
  induction vs with
  | nil => simp [itemsLevels]
  | cons v vs ih => rw [itemsLevels, Nat.max_le, ih, List.forall_mem_cons]

theorem membersLevels_le_iff {n : Nat} {ms : List (String × Json)} :
    membersLevels ms ≤ n ↔ ∀ m ∈ ms, m.2.levels ≤ n := by
  induction ms with
  | nil => simp [membersLevels]
  | cons m ms ih => rw [membersLevels, Nat.max_le, ih, List.forall_mem_cons]

/-- The value is printed faithfully, and no more than `n` brackets are open at once in it. -/
def Fits (n : Nat) (v : Json) : Prop := v.Faithful ∧ v.levels ≤ n

/-- A list fits if its items fit in a level less. -/
theorem fits_arr_iff {n : Nat} {vs : List Json} :
    (Json.arr vs).Fits (n + 1) ↔ ∀ v ∈ vs, v.Fits n := by
  simp only [Fits, Faithful, levels, itemsFaithful_iff, Nat.succ_le_succ_iff, itemsLevels_le_iff,
    forall₂_and]

/-- So does an object, if no two of its keys are alike. -/
theorem fits_obj_iff {n : Nat} {ms : Entries Json} :
    (Json.obj ms).Fits (n + 1) ↔ (Entries.names ms).Nodup ∧ ∀ m ∈ ms, m.2.Fits n := by
  simp only [Fits, Faithful, levels, membersFaithful_iff, Nat.succ_le_succ_iff,
    membersLevels_le_iff, and_assoc, forall₂_and]

theorem fits_str (n : Nat) (text : String) : (Json.str text).Fits n := ⟨trivial, Nat.zero_le n⟩

theorem fits_int (n : Nat) (k : Int64) : (Json.int k.toInt).Fits n :=
  ⟨Number.held_toInt k, Nat.zero_le n⟩

end Json

namespace Draft
variable {n : Nat}

/-! ### The keys of a schema -/

theorem names_member?_sublist {α : Type} {key : String} {toJson : α → Json} {value : Option α} :
    (Entries.names (member? key toJson value)).Sublist [key] := by
  cases value <;> simp [member?, Entries.names]

theorem names_append {α : Type} (es es' : Entries α) :
    Entries.names (es ++ es') = Entries.names es ++ Entries.names es' :=
  List.map_append

theorem fits_textsJson (n : Nat) (ss : List String) : (textsJson ss).Fits (n + 1) := by
  refine Json.fits_arr_iff.2 ?_
  intro v hv
  obtain ⟨s, -, rfl⟩ := List.mem_map.1 hv
  exact Json.fits_str n s

/-- A reference is an object of texts. -/
theorem Element.fits (n : Nat) (e : Element) : e.toJson.Fits (n + 1) := by
  rw [toJson, Json.fits_obj_iff]
  cases e with
  | ref | string | byte | unmapped => simp [members, Entries.names, Json.fits_str]
  | integer format =>
      cases format <;> simp [members, member?, Entries.names, Json.fits_str]

/-- A member that may be left out fits if its value would. -/
theorem fits_member? {α : Type} {key : String} {toJson : α → Json} {value : Option α}
    (h : ∀ a, (toJson a).Fits n) : ∀ m ∈ member? key toJson value, m.2.Fits n := by
  rintro ⟨name, v⟩ hm
  obtain ⟨-, a, -, rfl⟩ := mem_member?_iff.1 hm
  exact h a

/-- A schema with a description has no key twice if without it there is none. -/
theorem fits_described (description : Option String) {ms : Entries Json} (keys : List String)
    (hnodup : ("description" :: keys).Nodup) (hkeys : (Entries.names ms).Sublist keys)
    (hms : ∀ m ∈ ms, m.2.Fits n) :
    (Json.obj (member? "description" .str description ++ ms)).Fits (n + 1) := by
  refine Json.fits_obj_iff.2
    ⟨?_, List.forall_mem_append.2 ⟨fits_member? (Json.fits_str n), hms⟩⟩
  rw [names_append]
  exact (names_member?_sublist.append hkeys).nodup hnodup

/-- A schema that says its type and perhaps one more keyword about what it holds. -/
theorem fits_collection (n : Nat) (description : Option String) (type : String) {key : String}
    (held : Option Element) (hkeys : ["description", "type", key].Nodup) :
    (Json.obj (member? "description" .str description ++
      ("type", .str type) :: member? key Element.toJson held)).Fits (n + 2) :=
  fits_described description _ hkeys (.cons_cons _ names_member?_sublist)
    (List.forall_mem_cons.2 ⟨Json.fits_str _ type, fits_member? (Element.fits n)⟩)

/-- A property is an object of texts and of a reference. -/
theorem Property.fits (p : Property) : p.toJson.Fits 2 := by
  obtain ⟨description, content⟩ := p
  cases content with
  | element e =>
      have hkeys : (Entries.names e.members).Sublist ["$ref", "type", "format"] := by
        cases e with
        | ref | string | byte | unmapped => simp [Element.members, Entries.names]
        | integer format => exact .cons _ (.cons_cons _ names_member?_sublist)
      exact fits_described description _ (by decide) hkeys (Json.fits_obj_iff.1 (e.fits 1)).2
  | array items => exact fits_collection 0 description "array" items (by decide)
  | object additional => exact fits_collection 0 description "object" additional (by decide)

/-- A definition goes deepest in the properties of a struct. -/
theorem Definition.fits {v : Definition} (h : (Entries.names v.body.properties).Nodup) :
    v.toJson.Fits 4 := by
  obtain ⟨description, body⟩ := v
  cases body with
  | struct properties required =>
      have hproperties : (Json.obj (properties.map fun e => (e.1, e.2.toJson))).Fits 3 := by
        refine Json.fits_obj_iff.2 ⟨?_, ?_⟩
        · rw [Entries.names_map]
          exact h
        · intro m hm
          obtain ⟨e, -, rfl⟩ := List.mem_map.1 hm
          exact e.2.fits
      exact fits_described description ["properties", "required"] (by decide)
        (.cons_cons _ names_member?_sublist)
        (List.forall_mem_cons.2 ⟨hproperties, fits_member? (fits_textsJson 2)⟩)
  | array type items => exact fits_collection 2 description type items (by decide)
  | object additional => exact fits_collection 2 description "object" additional (by decide)
  | enum symbols =>
      exact fits_described description ["enum"] (by decide) (.refl _)
        (List.forall_mem_singleton.2 (fits_textsJson 2 symbols))
  | text maxLength minLength pattern values =>
      refine fits_described description
        ["type", "maxLength", "minLength", "pattern", "enum"] (by decide) ?_ ?_
      · simp only [Body.members, names_append]
        exact (((List.Sublist.cons_cons "type" names_member?_sublist).append
          names_member?_sublist).append names_member?_sublist).append names_member?_sublist
      · simp only [Body.members, List.cons_append, List.forall_mem_cons, List.forall_mem_append]
        exact ⟨Json.fits_str 3 "string", ⟨⟨fits_member? (Json.fits_int 3),
          fits_member? (Json.fits_int 3)⟩, fits_member? (Json.fits_str 3)⟩,
          fits_member? (fits_textsJson 2)⟩

end Draft

namespace Document

/-- **No document has a key twice** in any of its objects, and none nests deep. -/
theorem fits_toJson {s : Schema} {d : Document} (h : ofSchema s = .ok d) : d.toJson.Fits 6 := by
  have hdefinition : ∀ e ∈ d.definitions, e.2.toJson.Fits 4 := by
    rintro ⟨name, v⟩ he
    obtain ⟨t, -, -, hconvert⟩ := (mem_definitions_iff h).1 he
    refine Definition.fits ?_
    have hbody := Registry.body_eq_ok_iff.1 (body_of_convert hconvert)
    generalize v.body = body at hbody ⊢
    cases hbody with
    | struct _ hps =>
        rw [Registry.properties_eq] at hps
        obtain ⟨rs, -, rfl⟩ := map_eq_ok_iff.1 hps
        exact Entries.nodup_names_ofList _
    | array | map | enum | text | structAlias => exact List.nodup_nil
  have hdefinitions : (Json.obj (d.definitions.map fun e => (e.1, e.2.toJson))).Fits 5 := by
    refine Json.fits_obj_iff.2 ⟨?_, ?_⟩
    · rw [Entries.names_map]
      exact nodup_names_definitions h
    · intro m hm
      obtain ⟨e, he, rfl⟩ := List.mem_map.1 hm
      exact hdefinition e he
  rw [toJson, Json.fits_obj_iff]
  split
  · simp [Entries.names, Json.fits_str]
  · simp [Entries.names, Json.fits_str, hdefinitions]

end Document

/-! ### The text -/

/-- The text of the value is a JSON text; nothing in it is a control character but line ends, and
it ends with one of them. -/
structure Json.WellWritten (v : Json) : Prop where
  isText : IsText (Text.bytes v.render)
  noControl : ∀ b ∈ Text.bytes v.render, 0x20 ≤ b ∨ b = octet '\n'
  lineEnd : ∃ front, Text.bytes v.render = front ++ [octet '\n'] ∧
    front.getLast? ≠ some (octet '\n')

/-- The text of the value is well written and is read back to it. -/
structure Json.ReadsBack (v : Json) : Prop extends v.WellWritten where
  parsed : parse (Text.bytes v.render) = .ok v

namespace Json

/-- Characters that are no control characters have no octet that is one. -/
theorem noControl_bytes_render {v : Json} {b : UInt8} (hb : b ∈ Text.bytes v.render) :
    0x20 ≤ b ∨ b = octet '\n' := by
  by_cases hlow : b.toNat < 0x20
  · right
    rw [Text.bytes, render, String.toList_ofList] at hb
    obtain ⟨c, hc, hcb⟩ := (Text.Utf8.mem_encode_iff (Nat.lt_trans hlow (by decide))).1 hb
    have hshown : Shown c := by
      rcases List.mem_append.1 hc with hc | hc
      · exact shown_prettyChars 0 v c hc
      · exact .inr (List.mem_singleton.1 hc)
    rcases hshown with hplain | rfl
    · omega
    · exact UInt8.toNat_inj.1 hcb.symm
  · exact .inl (UInt8.le_iff_toNat_le.2 (Nat.le_of_not_lt hlow))

/-- Every text that is printed is well written, however deep its value nests. -/
theorem wellWritten (v : Json) : v.WellWritten where
  isText := isText_render v
  noControl _ hb := noControl_bytes_render hb
  lineEnd := by
    refine ⟨_, bytes_render v, ?_⟩
    intro hlast
    obtain ⟨cs, c, hchars, hc⟩ := exists_prettyChars_concat 0 v
    rw [hchars] at hlast
    exact hc (Char.toNat_inj.1 (Text.Utf8.toNat_of_getLast?_encode (by decide) hlast))

/-- What fits the reader is read back. -/
theorem Fits.readsBack {v : Json} (h : v.Fits maxLevels) : v.ReadsBack where
  toWellWritten := v.wellWritten
  parsed := parse_render h.1 h.2

/-- An empty list within `n` lists, each of them the only item of the next. -/
def nested : (n : Nat) → Json
  | 0     => .arr []
  | n + 1 => .arr [nested n]

theorem faithful_nested (n : Nat) : (nested n).Faithful := by
  induction n with
  | zero => trivial
  | succ n ih => exact ⟨ih, trivial⟩

/-- The empty list in the middle is a level, too. -/
theorem levels_nested (n : Nat) : (nested n).levels = n + 1 := by
  induction n with
  | zero => rfl
  | succ n ih => rw [nested, levels, itemsLevels, itemsLevels, Nat.max_zero, ih]

end Json

/-- **The text of a value is well written.  It is read back to the value**, if the integers of the
value have 64 bits, none of its objects has a key twice and no more brackets are open in it at once
than may be; if more are, the text is refused for its depth.  The text of every document is read
back. -/
theorem Document.text_reads_back :
    (∀ v : Json, v.WellWritten) ∧
      (∀ v : Json, v.Faithful →
        (v.levels ≤ Json.maxLevels → v.ReadsBack) ∧
        (Json.maxLevels < v.levels →
          ∃ e, Json.parse (Text.bytes v.render) = .error e ∧ e.cause = .tooDeep)) ∧
      ∀ (s : Schema) (d : Document), ofSchema s = .ok d → d.toJson.ReadsBack := by
  refine ⟨Json.wellWritten, fun v hv => ⟨fun hlevels => ?_, ?_⟩, fun s d h => ?_⟩
  · exact Json.Fits.readsBack ⟨hv, hlevels⟩
  · exact Json.parse_render_tooDeep hv
  · obtain ⟨hfaithful, hlevels⟩ := fits_toJson h
    exact Json.Fits.readsBack ⟨hfaithful, Nat.le_trans hlevels (by decide)⟩

/-- Keys and texts with escapes, the outermost integers, and containers with nothing in them; as
many brackets as may be open, and one more; and the document of an enum. -/
theorem Document.text_reads_back_samples :
    (Json.obj [("\"\\\n\x01", .arr []), ("", .arr [.int Int64.minValue.toInt,
        .int (UInt64.size - 1), .obj [("é", .str "\x1f\x7f/"), ("e", .obj [])]]),
        ("é", .null)]).ReadsBack ∧
      (Json.nested 126).ReadsBack ∧
      (∃ e, Json.parse (Text.bytes (Json.nested 127).render) = .error e ∧ e.cause = .tooDeep) ∧
      ∃ d, ofSchema ⟨"", [⟨"E", "Enum", none, .enum ["\t"]⟩]⟩ = .ok d ∧ d.toJson.ReadsBack := by
  have hkeys : (Json.obj [("é", .str "\x1f\x7f/"), ("e", .obj [])]).Faithful :=
    ⟨by decide, trivial, ⟨by decide, trivial⟩, trivial⟩
  have hleast : Json.Number.Held Int64.minValue.toInt := by decide
  have hmost : Json.Number.Held (UInt64.size - 1) := by decide
  obtain ⟨-, hvalues, hdocuments⟩ := text_reads_back
  refine ⟨(hvalues _ ?sample).1 (by decide), (hvalues _ (Json.faithful_nested 126)).1 ?deepest,
    (hvalues _ (Json.faithful_nested 127)).2 ?deeper, ⟨[("E", ⟨none, .enum ["\t"]⟩)], []⟩,
    ?converts, ?document⟩
  case sample => exact ⟨by decide, trivial, ⟨hleast, hmost, hkeys, trivial⟩, trivial, trivial⟩
  case deepest => exact (Json.levels_nested 126).le
  case deeper => exact (Json.levels_nested 127).ge
  case converts => rfl
  case document => exact hdocuments ⟨"", [⟨"E", "Enum", none, .enum ["\t"]⟩]⟩ _ rfl

/-- **Not every text is read back**: that of a list 128 brackets deep is not. -/
theorem Document.deep_text_not_read_back :
    (Json.nested 127).Faithful ∧
      Json.parse (Text.bytes (Json.nested 127).render) ≠ .ok (Json.nested 127) := by
  refine ⟨Json.faithful_nested 127, fun hread => ?_⟩
  obtain ⟨e, herror, -⟩ := Json.parse_render_tooDeep (Json.faithful_nested 127)
    (Json.levels_nested 127).ge
  cases herror.symm.trans hread

end InterfaceSchema
