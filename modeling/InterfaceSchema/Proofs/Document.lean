import InterfaceSchema.Document
import InterfaceSchema.Proofs.Conversion

/-!
# The document of a schema

The document is made by one loop over the declared types, which keeps a session and the
definitions so far.  What a type comes to does not hang on what came before it, so the loop is
the fragments of all types, each worked out alone, put in one after the other
(`Document.ofSchema_eq`).

* `conversion_decided`: there is a document exactly when every declared type is sound; otherwise
  the error is that of the first type that is not.
* `definitions_of_fragments`: the definitions stand under the names of the types that produce
  one, in the order in which those first come, and of types of one name the last counts; there is
  a diagnostic for every union, and no other.
* `definitions_meant_iff`: the definition under a name is that of the type which the name means,
  as long as no type that produces a definition has the name of a built-in type, and none is
  followed by a type of its name that produces none.
-/

namespace InterfaceSchema

open Draft (Definition)

/-! ### Types one by one -/

/-- What a fresh session over the types of the schema makes of one type. -/
def Schema.convert (s : Schema) (t : TypeDef) : Except ConversionError (Option Definition) :=
  ((Session.mk (.ofSchema s) []).convert (.declared t)).1

/-- The definition that the type produces when it is converted alone. -/
def Schema.fragment? (s : Schema) (t : TypeDef) : Option Definition :=
  match s.convert t with
  | .ok o => o
  | .error _ => none

theorem Schema.convert_eq (s : Schema) (t : TypeDef) :
    s.convert t = (Registry.ofSchema s).define (.declared t) :=
  rfl

/-- A type that can be converted and its definition, if it produces one. -/
theorem Schema.fragment?_eq {s : Schema} {t : TypeDef} {o : Option Definition}
    (h : s.convert t = .ok o) : s.fragment? t = o := by
  rw [fragment?, h]

theorem Schema.fragment?_isSome_iff {s : Schema} {t : TypeDef} {o : Option Definition}
    (h : s.convert t = .ok o) :
    (s.fragment? t).isSome = true ↔ (Registry.ofSchema s).Defines t := by
  rw [fragment?_eq h]
  exact Registry.isSome_iff_defines h

/-- The name means a declared type, and this comes to the definition. -/
def Schema.Means (s : Schema) (name : String) (v : Definition) : Prop :=
  ∃ t, (Registry.ofSchema s).find name = .ok (.declared t) ∧ s.convert t = .ok (some v)

/-- No type of its name that follows the type produces a definition. -/
def Schema.Stands (s : Schema) (t : TypeDef) : Prop :=
  ∃ before after, s.types = before ++ t :: after ∧
    ∀ u ∈ after, u.name = t.name → ¬ (Registry.ofSchema s).Defines u

theorem Schema.Stands.mem {s : Schema} {t : TypeDef} (h : s.Stands t) : t ∈ s.types := by
  obtain ⟨before, after, htypes, -⟩ := h
  rw [htypes]
  exact List.mem_append_right before List.mem_cons_self

/-- What converting a union has to be said about. -/
def TypeDef.diagnostic? (t : TypeDef) : Option Diagnostic :=
  match t.form with
  | .union _ => some (.unionNotSupported t.name)
  | _ => none

theorem diagnostic?_declared (t : TypeDef) :
    (Referent.declared t).diagnostic? = t.diagnostic? := by
  obtain ⟨_, _, _, form⟩ := t
  cases form <;> rfl

/-! ### All types -/

namespace Document

/-- The document of types and what they come to. -/
def ofResults (rs : List (TypeDef × Option Definition)) : Document where
  definitions := Entries.ofList (rs.filterMap fun r => r.2.map fun d => (r.1.name, d))
  diagnostics := rs.filterMap (·.1.diagnostic?)

/-- The assembly once a type has come to `o`. -/
def Assembly.put (a : Assembly) (t : TypeDef) (o : Option Definition) : Assembly where
  session := { a.session with diagnostics := a.session.diagnostics ++ t.diagnostic?.toList }
  definitions := o.elim a.definitions fun d => Entries.insert t.name d a.definitions

theorem Assembly.add_eq (a : Assembly) (t : TypeDef) :
    a.add t = (a.session.registry.define (.declared t)).map (a.put t) := by
  rw [add, Session.convert, diagnostic?_declared]
  rcases a.session.registry.define (.declared t) with e | _ | d <;> rfl

/-- What the assembly holds in the end: what it held, and then all the results. -/
theorem Assembly.foldl_put (rs : List (TypeDef × Option Definition)) (a : Assembly) :
    rs.foldl (fun a r => a.put r.1 r.2) a =
      { session :=
          { a.session with diagnostics := a.session.diagnostics ++ (ofResults rs).diagnostics }
        definitions :=
          (rs.filterMap fun r => r.2.map fun d => (r.1.name, d)).foldl
            (fun es p => Entries.insert p.1 p.2 es) a.definitions } := by
  induction rs generalizing a with
  | nil => simp [ofResults]
  | cons r rs ih =>
      obtain ⟨t, o⟩ := r
      rw [List.foldl_cons, ih]
      cases o <;> cases hd : t.diagnostic? <;> simp [put, ofResults, hd]

/-- **The document is made of what its types come to one by one**, or fails as the first of them
that fails. -/
theorem ofSchema_eq (s : Schema) : ofSchema s = (collect s.convert s.types).map ofResults := by
  have hloop : s.types.foldlM Assembly.add ⟨⟨.ofSchema s, []⟩, []⟩ =
      (collect s.convert s.types).map (List.foldl (fun a r => a.put r.1 r.2) _) :=
    foldlM_eq_collect s.convert Assembly.put (fun a => a.session.registry = .ofSchema s)
      (fun a t ha => by rw [Assembly.add_eq, ha, Schema.convert_eq]) (fun _ _ _ ha => ha) rfl s.types
  -- the diagnostics of the session are those of the types, which no conversion reads
  rw [ofSchema, hloop]
  cases collect s.convert s.types with
  | error e => rfl
  | ok rs => simp [Except.map, Assembly.foldl_put, ofResults, Entries.ofList]

/-- Where there is a document, every type has come to its fragment. -/
theorem eq_of_ofSchema {s : Schema} {d : Document} (h : ofSchema s = .ok d) :
    (∀ t ∈ s.types, s.convert t = .ok (s.fragment? t)) ∧
      d.definitions = Entries.ofList
        (s.types.filterMap fun t => (s.fragment? t).map fun d => (t.name, d)) ∧
      d.diagnostics = s.types.filterMap (·.diagnostic?) := by
  rw [ofSchema_eq] at h
  obtain ⟨rs, hrs, rfl⟩ := map_eq_ok_iff.1 h
  obtain ⟨htypes, hall⟩ := collect_eq_ok_iff.1 hrs
  have hfragment : ∀ r ∈ rs, r.2 = s.fragment? r.1 := fun r hr =>
    (Schema.fragment?_eq (hall r hr)).symm
  refine ⟨fun t ht => ?_, ?_, ?_⟩
  · rw [← htypes] at ht
    obtain ⟨r, hr, rfl⟩ := List.mem_map.1 ht
    rw [← hfragment r hr]
    exact hall r hr
  · rw [← htypes, List.filterMap_map]
    refine congrArg Entries.ofList (List.filterMap_congr fun r hr => ?_)
    rw [hfragment r hr]
    rfl
  · rw [← htypes, List.filterMap_map]
    rfl

/-! ### Whether there is a document -/

theorem exists_ofSchema_iff {s : Schema} :
    (∃ d, ofSchema s = .ok d) ↔ ∀ t ∈ s.types, (Registry.ofSchema s).Sound t := by
  simp only [← Registry.exists_define_iff, ← Schema.convert_eq, ← exists_collect_iff, ofSchema_eq,
    exists_map_eq_ok_iff]

theorem ofSchema_eq_error_iff {s : Schema} {e : ConversionError} :
    ofSchema s = .error e ↔ ∃ before t after, s.types = before ++ t :: after ∧
      (∀ u ∈ before, (Registry.ofSchema s).Sound u) ∧ (Registry.ofSchema s).TypeFails t e := by
  simp only [← Registry.exists_define_iff, ← Registry.define_eq_error_iff, ← Schema.convert_eq,
    ← collect_eq_error_iff, ofSchema_eq, map_eq_error_iff]

/-- **There is a document exactly when every declared type is sound**, shadowed ones too; and the
error is that of the first type that is not. -/
theorem conversion_decided (s : Schema) :
    ((∃ d, ofSchema s = .ok d) ↔ ∀ t ∈ s.types, (Registry.ofSchema s).Sound t) ∧
      ∀ e, ofSchema s = .error e ↔ ∃ before t after, s.types = before ++ t :: after ∧
        (∀ u ∈ before, (Registry.ofSchema s).Sound u) ∧ (Registry.ofSchema s).TypeFails t e :=
  ⟨exists_ofSchema_iff, fun _ => ofSchema_eq_error_iff⟩

/-! ### What is in it -/

theorem map_fst_fragments (f : TypeDef → Option Definition) (ts : List TypeDef) :
    (ts.filterMap fun t => (f t).map fun d => (t.name, d)).map (·.1) =
      (ts.filter fun t => (f t).isSome).map (·.name) := by
  induction ts with
  | nil => rfl
  | cons t ts ih => cases h : f t <;> simp [h, ih]

/-- The definition under a name is the last that a type of the name produces. -/
theorem get?_fragments (f : TypeDef → Option Definition) (ts : List TypeDef) (name : String) :
    Entries.get? name (.ofList (ts.filterMap fun t => (f t).map fun d => (t.name, d))) =
      ((ts.filter (·.name = name)).filterMap f).getLast? := by
  rw [Entries.get?_ofList, ← List.getLast?_filter, ← List.getLast?_map, List.filter_filterMap,
    List.map_filterMap, List.filterMap_filter]
  refine congrArg List.getLast? (List.filterMap_congr fun t _ => ?_)
  by_cases hname : t.name = name <;> cases f t <;> simp [hname, Option.filter]

/-- The members of the document in JSON. -/
theorem toJson_eq (d : Document) :
    d.toJson = .obj (("$schema", .str Draft.dialect) ::
      if d.definitions = [] then []
      else [("definitions", .obj (d.definitions.map fun e => (e.1, e.2.toJson)))]) := by
  rw [toJson]
  simp only [List.isEmpty_iff]

/-- **The document is the fragments of its types.**  Each is what a fresh session makes of its
type alone.  The definitions stand under the names of the types that produce one, each once and
where the first of them stands; the last of them counts; and without any there is no member for
them.  The diagnostics are those of the unions, in order. -/
theorem definitions_of_fragments {s : Schema} {d : Document} (h : ofSchema s = .ok d) :
    (∀ t ∈ s.types, s.convert t = .ok (s.fragment? t)) ∧
      (∃ es : Entries Json,
        d.toJson = .obj (("$schema", .str Draft.dialect) ::
          if s.types.any fun t => (s.fragment? t).isSome then [("definitions", .obj es)] else []) ∧
        es.names = ((s.types.filter fun t => (s.fragment? t).isSome).map (·.name)).eraseDups ∧
        es.names.Nodup ∧
        ∀ name, es.get? name = (((s.types.filter (·.name = name)).filterMap s.fragment?).getLast?).map
          (·.toJson)) ∧
      d.diagnostics = s.types.filterMap fun t =>
        match t.form with
        | .union _ => some (.unionNotSupported t.name)
        | _ => none := by
  obtain ⟨hconvert, hdefs, hdiags⟩ := eq_of_ofSchema h
  refine ⟨hconvert, ⟨d.definitions.map fun e => (e.1, e.2.toJson), ?_, ?_, ?_, fun name => ?_⟩,
    hdiags⟩
  · have hnil : d.definitions = [] ↔ ¬ s.types.any fun t => (s.fragment? t).isSome := by
      rw [hdefs, Entries.ofList_eq_nil_iff]
      simp
    rw [toJson_eq]
    by_cases hany : s.types.any fun t => (s.fragment? t).isSome
    · rw [if_neg (fun hd => hnil.1 hd hany), if_pos hany]
    · rw [if_pos (hnil.2 hany), if_neg hany]
  · rw [Entries.names_map, hdefs, Entries.names_ofList, map_fst_fragments]
  · rw [Entries.names_map, hdefs]
    exact Entries.nodup_names_ofList _
  · rw [Entries.get?_map, hdefs, get?_fragments]

/-- A struct, a union between two enums of one name, and an alias that takes no place. -/
theorem definitions_of_fragments_shadowed :
    let s : Schema := ⟨"Shadows", [⟨"A", "Struct", none, .struct []⟩,
      ⟨"B", "Enum", none, .enum ["x"]⟩, ⟨"B", "Union", none, .union ["A"]⟩,
      ⟨"A", "Int32", none, .bare⟩, ⟨"B", "Enum", none, .enum ["y"]⟩]⟩
    ∃ d, ofSchema s = .ok d ∧
      (∀ t ∈ s.types, s.convert t = .ok (s.fragment? t)) ∧
      (∃ es : Entries Json,
        d.toJson = .obj (("$schema", .str Draft.dialect) ::
          if s.types.any fun t => (s.fragment? t).isSome then [("definitions", .obj es)] else []) ∧
        es.names = ((s.types.filter fun t => (s.fragment? t).isSome).map (·.name)).eraseDups ∧
        es.names.Nodup ∧
        ∀ name, es.get? name = (((s.types.filter (·.name = name)).filterMap s.fragment?).getLast?).map
          (·.toJson)) ∧
      d.diagnostics = s.types.filterMap fun t =>
        match t.form with
        | .union _ => some (.unionNotSupported t.name)
        | _ => none :=
  ⟨_, rfl, definitions_of_fragments rfl⟩

/-! ### Which type a definition is of -/

/-- **A definition is of the last type of its name that produces one.** -/
theorem mem_definitions_iff {s : Schema} {d : Document} (h : ofSchema s = .ok d) {name : String}
    {v : Definition} :
    (name, v) ∈ d.definitions ↔ ∃ t, s.Stands t ∧ t.name = name ∧ s.convert t = .ok (some v) := by
  obtain ⟨hconvert, hdefs, -⟩ := eq_of_ofSchema h
  have hnone : ∀ u ∈ s.types,
      s.fragment? u = none ↔ ¬ (Registry.ofSchema s).Defines u := fun u hu => by
    rw [← Schema.fragment?_isSome_iff (hconvert u hu)]
    simp
  rw [hdefs, Entries.mem_ofList_filterMap_iff]
  constructor
  · rintro ⟨before, t, after, htypes, rfl, hv, hafter⟩
    refine ⟨t, ⟨before, after, htypes, fun u hu hname => ?_⟩, rfl, ?_⟩
    · refine (hnone u ?_).1 (hafter u hu hname)
      rw [htypes]
      exact List.mem_append_right before (List.mem_cons_of_mem t hu)
    · refine hv ▸ hconvert t ?_
      rw [htypes]
      exact List.mem_append_right before List.mem_cons_self
  · rintro ⟨t, ⟨before, after, htypes, hafter⟩, rfl, hv⟩
    refine ⟨before, t, after, htypes, rfl, Schema.fragment?_eq hv, fun u hu hname => ?_⟩
    refine (hnone u ?_).2 (hafter u hu hname)
    rw [htypes]
    exact List.mem_append_right before (List.mem_cons_of_mem t hu)

/-- **The names of the definitions** are those of the types that produce one. -/
theorem mem_names_definitions_iff {s : Schema} {d : Document} (h : ofSchema s = .ok d)
    {name : String} :
    name ∈ Entries.names d.definitions ↔
      ∃ t ∈ s.types, t.name = name ∧ (Registry.ofSchema s).Defines t := by
  obtain ⟨hconvert, hdefs, -⟩ := eq_of_ofSchema h
  rw [hdefs, Entries.names_ofList, List.mem_eraseDups, map_fst_fragments]
  constructor
  · intro hname
    obtain ⟨t, ht, rfl⟩ := List.mem_map.1 hname
    obtain ⟨ht, hsome⟩ := List.mem_filter.1 ht
    exact ⟨t, ht, rfl, (Schema.fragment?_isSome_iff (hconvert t ht)).1 hsome⟩
  · rintro ⟨t, ht, rfl, hdefines⟩
    -- where the name is kept the definition of a later type may stand
    have hsome := (Schema.fragment?_isSome_iff (hconvert t ht)).2 hdefines
    exact List.mem_map.2 ⟨t, List.mem_filter.2 ⟨ht, hsome⟩, rfl⟩

theorem nodup_names_definitions {s : Schema} {d : Document} (h : ofSchema s = .ok d) :
    (Entries.names d.definitions).Nodup := by
  obtain ⟨-, hdefs, -⟩ := eq_of_ofSchema h
  rw [hdefs]
  exact Entries.nodup_names_ofList _

/-- A type that produces a definition comes to it. -/
theorem exists_convert_of_defines {s : Schema} {d : Document} (h : ofSchema s = .ok d)
    {t : TypeDef} (ht : t ∈ s.types) (hdefines : (Registry.ofSchema s).Defines t) :
    ∃ v, s.convert t = .ok (some v) := by
  have hconvert := (eq_of_ofSchema h).1 t ht
  obtain ⟨v, hv⟩ := Option.isSome_iff_exists.1 ((Schema.fragment?_isSome_iff hconvert).2 hdefines)
  exact ⟨v, hv ▸ hconvert⟩

/-- A name that means a type with a definition is not built in, and its last type has one. -/
theorem name_of_means {s : Schema} {name : String} {v : Definition} (h : s.Means name v) :
    (∀ b : BaseType, b.name ≠ name) ∧
      ∀ u, (Registry.ofSchema s).declared? name = some u → (Registry.ofSchema s).Defines u := by
  obtain ⟨t, hfind, hconvert⟩ := h
  obtain ⟨hbuiltIn, hdeclared⟩ := Registry.find_eq_declared_iff.1 hfind
  refine ⟨fun b hb => ?_, fun u hu => ?_⟩
  · rw [BaseType.ofName?_eq_some_iff.2 hb] at hbuiltIn
    cases hbuiltIn
  · obtain rfl : t = u := Option.some.inj (hdeclared.symm.trans hu)
    exact (Registry.isSome_iff_defines hconvert).1 rfl

/-- The definition under a name is what the name means, if this is not built in and its last type
produces a definition. -/
theorem means_of_mem {s : Schema} {d : Document} (h : ofSchema s = .ok d) {name : String}
    {v : Definition} (hv : (name, v) ∈ d.definitions) (hbuiltIn : ∀ b : BaseType, b.name ≠ name)
    (hlast : ∀ u, (Registry.ofSchema s).declared? name = some u → (Registry.ofSchema s).Defines u) :
    s.Means name v := by
  obtain ⟨t, hstands, rfl, -⟩ := (mem_definitions_iff h).1 hv
  cases hdeclared : (Registry.ofSchema s).declared? t.name with
  | none => exact absurd rfl (Registry.declared?_eq_none_iff.1 hdeclared t hstands.mem)
  | some u =>
      have hu : u ∈ s.types := Registry.mem_of_declared? hdeclared
      obtain ⟨w, hw⟩ := exists_convert_of_defines h hu (hlast u hdeclared)
      obtain ⟨hname, before, after, htypes, hafter⟩ := Registry.declared?_eq_some_iff.1 hdeclared
      -- the last type of the name has its definition there, and a name stands once
      have hthere : (t.name, w) ∈ d.definitions := (mem_definitions_iff h).2
        ⟨u, ⟨before, after, htypes, fun x hx hxu => absurd (hxu.trans hname) (hafter x hx)⟩,
          hname, hw⟩
      obtain rfl : v = w := Entries.eq_of_mem (nodup_names_definitions h) hv hthere
      have hnone : BaseType.ofName? t.name = none := BaseType.ofName?_eq_none_iff.2 hbuiltIn
      exact ⟨u, Registry.find_eq_declared_iff.2 ⟨hnone, hdeclared⟩, hw⟩

/-- **Every definition is of the type that its name means** exactly when no type that produces
one has the name of a built-in type, or is followed by a last type of its name that produces
none. -/
theorem definitions_meant_iff {s : Schema} {d : Document} (h : ofSchema s = .ok d) :
    (∀ name v, (name, v) ∈ d.definitions → s.Means name v) ↔
      ∀ t ∈ s.types, (Registry.ofSchema s).Defines t →
        (∀ b : BaseType, b.name ≠ t.name) ∧
          ∀ u, (Registry.ofSchema s).declared? t.name = some u →
            (Registry.ofSchema s).Defines u := by
  constructor
  · intro hmeant t ht hdefines
    have hname := (mem_names_definitions_iff h).2 ⟨t, ht, rfl, hdefines⟩
    obtain ⟨⟨_, v⟩, hv, rfl⟩ := List.mem_map.1 hname
    exact name_of_means (hmeant _ v hv)
  · intro hcondition name v hv
    obtain ⟨t, ht, rfl, hdefines⟩ := (mem_names_definitions_iff h).1 (List.mem_map_of_mem hv)
    obtain ⟨hbuiltIn, hlast⟩ := hcondition t ht hdefines
    exact means_of_mem h hv hbuiltIn hlast

/-- A struct that follows an alias of its name. -/
theorem definitions_meant_alias_first :
    let s : Schema := ⟨"Last", [⟨"A", "Int32", none, .bare⟩, ⟨"A", "Struct", none, .struct []⟩]⟩
    ∃ d, ofSchema s = .ok d ∧ d.definitions ≠ [] ∧
      ∀ name v, (name, v) ∈ d.definitions → s.Means name v := by
  refine ⟨_, rfl, List.cons_ne_nil _ _, (definitions_meant_iff rfl).2 fun t ht _ => ?_⟩
  have hname : t.name = "A" := by
    simp only [List.mem_cons, List.not_mem_nil, or_false] at ht
    obtain rfl | rfl := ht <;> rfl
  rw [hname]
  refine ⟨fun b => by cases b <;> decide, fun u hu => ?_⟩
  obtain rfl : (⟨"A", "Struct", none, .struct []⟩ : TypeDef) = u := Option.some.inj hu
  trivial

/-- A struct that an alias of its name follows: the name means the alias, which comes to no
definition. -/
theorem definition_not_meant_alias_last :
    let s : Schema := ⟨"Last", [⟨"A", "Struct", none, .struct []⟩, ⟨"A", "Int32", none, .bare⟩]⟩
    ∃ d, ofSchema s = .ok d ∧ ¬ ∀ name v, (name, v) ∈ d.definitions → s.Means name v := by
  refine ⟨_, rfl, fun h => ?_⟩
  obtain ⟨t, hfind, hconvert⟩ := h "A" _ List.mem_cons_self
  obtain rfl : (⟨"A", "Int32", none, .bare⟩ : TypeDef) = t :=
    Referent.declared.inj (Except.ok.inj hfind)
  exact absurd (Except.ok.inj hconvert) nofun

end Document
end InterfaceSchema
