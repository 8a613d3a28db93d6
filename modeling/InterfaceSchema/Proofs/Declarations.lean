import InterfaceSchema.Proofs.Document
import InterfaceSchema.Proofs.Extension

/-!
# Declarations moved and declarations added

Two schemas whose registries know the same of the names in use make the same of a type, so their
documents differ only as their lists of types do.

* `reordered_definitions`: types of different names may be declared in any order.  There is a
  document in every order or in none; a type has the same definition in all, and each document
  has its definitions and diagnostics in the order of its own schema.
* `added_definition`: a type of a new name may be declared anywhere.  There is a document as long
  as the new type can be converted, and it is the old one with what the new type adds.
-/

namespace InterfaceSchema

open Draft (Definition)

/-- **A type that can be converted comes to the same definition in a schema that knows more.** -/
theorem Schema.convert_of_extends {s s' : Schema}
    (hext : (Registry.ofSchema s').Extends (.ofSchema s)) {t : TypeDef} {o : Option Definition}
    (h : s.convert t = .ok o) : s'.convert t = .ok o :=
  Registry.define_of_extends hext h

namespace Document

theorem exists_ofSchema_iff_convert {s : Schema} :
    (∃ d, ofSchema s = .ok d) ↔ ∀ t ∈ s.types, ∃ o, s.convert t = .ok o := by
  rw [ofSchema_eq, exists_map_eq_ok_iff, exists_collect_iff]

/-! ### Another order -/

/-- Where all names are different, the definitions are the fragments of the types in their
order. -/
theorem definitions_of_nodup {s : Schema} {d : Document} (h : ofSchema s = .ok d)
    (hnames : (s.types.map (·.name)).Nodup) :
    d.definitions = s.types.filterMap fun t => (s.fragment? t).map fun v => (t.name, v) := by
  obtain ⟨-, hdefs, -⟩ := eq_of_ofSchema h
  rw [hdefs, Entries.ofList_eq_self]
  rw [map_fst_fragments]
  exact hnames.sublist (List.filter_sublist.map _)

theorem exists_ofSchema_of_perm {s s' : Schema} (hperm : s.types.Perm s'.types)
    (hnames : (s.types.map (·.name)).Nodup) (h : ∃ d, ofSchema s = .ok d) :
    ∃ d', ofSchema s' = .ok d' := by
  rw [exists_ofSchema_iff_convert] at h ⊢
  intro t ht
  obtain ⟨o, ho⟩ := h t (hperm.mem_iff.2 ht)
  exact ⟨o, Schema.convert_of_extends (Registry.extends_of_perm hperm hnames) ho⟩

/-- **The order of the declarations is the order of the document, and nothing else**, where all
names are different.  The fragments are those that the types have in the first schema. -/
theorem reordered_definitions {s s' : Schema} (hnames : (s.types.map (·.name)).Nodup)
    (hperm : s.types.Perm s'.types) :
    ((∃ d, ofSchema s = .ok d) ↔ ∃ d', ofSchema s' = .ok d') ∧
      ∀ d d', ofSchema s = .ok d → ofSchema s' = .ok d' →
        (∀ name, Entries.get? name d.definitions = Entries.get? name d'.definitions) ∧
        d.definitions = s.types.filterMap (fun t => (s.fragment? t).map fun v => (t.name, v)) ∧
        d'.definitions = s'.types.filterMap (fun t => (s.fragment? t).map fun v => (t.name, v)) ∧
        d.diagnostics = s.types.filterMap (·.diagnostic?) ∧
        d'.diagnostics = s'.types.filterMap (·.diagnostic?) := by
  have hnames' : (s'.types.map (·.name)).Nodup := (hperm.map _).nodup_iff.1 hnames
  have hext : (Registry.ofSchema s').Extends (.ofSchema s) :=
    Registry.extends_of_perm hperm hnames
  refine ⟨⟨exists_ofSchema_of_perm hperm hnames, exists_ofSchema_of_perm hperm.symm hnames'⟩,
    fun d d' h h' => ?_⟩
  obtain ⟨hconvert, -, hdiags⟩ := eq_of_ofSchema h
  obtain ⟨-, -, hdiags'⟩ := eq_of_ofSchema h'
  have hdefs := definitions_of_nodup h hnames
  -- every type has the fragment that it has in the first order
  have hdefs' : d'.definitions =
      s'.types.filterMap fun t => (s.fragment? t).map fun v => (t.name, v) := by
    rw [definitions_of_nodup h' hnames']
    refine List.filterMap_congr fun t ht => ?_
    rw [Schema.fragment?_eq (Schema.convert_of_extends hext (hconvert t (hperm.mem_iff.2 ht)))]
  refine ⟨fun name => ?_, hdefs, hdefs', hdiags, hdiags'⟩
  refine Entries.get?_of_perm ?_ (nodup_names_definitions h) name
  rw [hdefs, hdefs']
  exact hperm.filterMap _

/-- Two structs that refer to each other, a list of one of them, an alias and a union, forwards
and backwards. -/
theorem reordered_definitions_backwards :
    let s : Schema := ⟨"Teams", [⟨"Teams", "Array", none, .array "Team"⟩,
      ⟨"Team", "Struct", none, .struct [⟨"captain", "Player", false, none, none⟩]⟩,
      ⟨"Player", "Struct", none, .struct [⟨"team", "Team", true, none, none⟩,
        ⟨"age", "Age", false, none, none⟩]⟩,
      ⟨"Age", "Years", none, .bare⟩, ⟨"Guest", "Union", none, .union ["Team", "Player"]⟩,
      ⟨"Years", "Int32", none, .bare⟩]⟩
    let s' : Schema := ⟨"Teams", s.types.reverse⟩
    (s.types.map (·.name)).Nodup ∧ s.types.Perm s'.types ∧
      ∃ d d', ofSchema s = .ok d ∧ ofSchema s' = .ok d' ∧
        (∀ name, Entries.get? name d.definitions = Entries.get? name d'.definitions) ∧
        d.definitions = s.types.filterMap (fun t => (s.fragment? t).map fun v => (t.name, v)) ∧
        d'.definitions = s'.types.filterMap (fun t => (s.fragment? t).map fun v => (t.name, v)) ∧
        d.diagnostics = s.types.filterMap (·.diagnostic?) ∧
        d'.diagnostics = s'.types.filterMap (·.diagnostic?) := by
  intro s s'
  have hnames : (s.types.map (·.name)).Nodup := by decide
  have hperm : s.types.Perm s'.types := s.types.reverse_perm.symm
  exact ⟨hnames, hperm, _, _, rfl, rfl, (reordered_definitions hnames hperm).2 _ _ rfl rfl⟩

/-! ### One more type -/

/-- The fragments that do not stand under a name are those of the types of other names. -/
theorem filter_fragments (f : TypeDef → Option Definition) (ts : List TypeDef) (name : String) :
    (ts.filterMap fun t => (f t).map fun v => (t.name, v)).filter (·.1 ≠ name) =
      (ts.filter (·.name ≠ name)).filterMap fun t => (f t).map fun v => (t.name, v) := by
  induction ts with
  | nil => rfl
  | cons t ts ih =>
      by_cases hname : t.name = name
      · cases hf : f t <;> simp_all
      · cases hf : f t <;> simp_all

/-- **A type of a new name adds what it comes to, and changes nothing else.**  Without its own
entry the definitions are the old ones, and without its own diagnostic so are the diagnostics. -/
theorem added_definition {s s' : Schema} {before after : List TypeDef} {t : TypeDef}
    (htypes : s.types = before ++ after) (htypes' : s'.types = before ++ t :: after)
    (hnew : ∀ u ∈ s.types, u.name ≠ t.name) {d : Document} (h : ofSchema s = .ok d) :
    ((∃ d', ofSchema s' = .ok d') ↔ ∃ o, s'.convert t = .ok o) ∧
      ∀ d', ofSchema s' = .ok d' →
        d'.definitions.filter (·.1 ≠ t.name) = d.definitions ∧
        Entries.get? t.name d'.definitions = s'.fragment? t ∧
        ∃ ds es, d.diagnostics = ds ++ es ∧
          d'.diagnostics = ds ++ t.diagnostic?.toList ++ es := by
  obtain ⟨hconvert, hdefs, hdiags⟩ := eq_of_ofSchema h
  have hext : (Registry.ofSchema s').Extends (.ofSchema s) :=
    Registry.extends_of_insert htypes htypes' hnew
  have hold : ∀ u ∈ before ++ after, s'.convert u = .ok (s.fragment? u) := by
    intro u hu
    exact Schema.convert_of_extends hext (hconvert u (htypes ▸ hu))
  constructor
  · rw [exists_ofSchema_iff_convert, htypes']
    constructor
    · intro hall
      exact hall t (by simp)
    · intro ht u hu
      rcases List.mem_append.1 hu with hu | hu
      · exact ⟨_, hold u (List.mem_append_left after hu)⟩
      · rcases List.mem_cons.1 hu with rfl | hu
        · exact ht
        · exact ⟨_, hold u (List.mem_append_right before hu)⟩
  · intro d' h'
    obtain ⟨-, hdefs', hdiags'⟩ := eq_of_ofSchema h'
    have hbefore : ∀ u ∈ before, u.name ≠ t.name := fun u hu =>
      hnew u (htypes ▸ List.mem_append_left after hu)
    have hafter : ∀ u ∈ after, u.name ≠ t.name := fun u hu =>
      hnew u (htypes ▸ List.mem_append_right before hu)
    -- the types of other names are the old ones, and the new one is alone under its name
    have hothers : s'.types.filter (·.name ≠ t.name) = before ++ after := by
      rw [htypes', List.filter_append, List.filter_cons_of_neg (by simp),
        List.filter_eq_self.2 (by simpa using hbefore),
        List.filter_eq_self.2 (by simpa using hafter)]
    have howns : s'.types.filter (·.name = t.name) = [t] := by
      rw [htypes', List.filter_append, List.filter_cons_of_pos (by simp),
        List.filter_eq_nil_iff.2 (by simpa using hbefore),
        List.filter_eq_nil_iff.2 (by simpa using hafter), List.nil_append]
    refine ⟨?_, ?_, before.filterMap (·.diagnostic?), after.filterMap (·.diagnostic?), ?_, ?_⟩
    · rw [hdefs', Entries.filter_ofList, filter_fragments, hothers, hdefs, htypes]
      refine congrArg Entries.ofList (List.filterMap_congr fun u hu => ?_)
      rw [Schema.fragment?_eq (hold u hu)]
    · rw [hdefs', get?_fragments, howns]
      cases hf : s'.fragment? t <;> simp [hf]
    · rw [hdiags, htypes, List.filterMap_append]
    · rw [hdiags', htypes']
      cases hd : t.diagnostic? <;> simp [hd]

/-- A union that has the name of a built-in type, between two structs that use this. -/
theorem added_definition_between :
    let player : TypeDef :=
      ⟨"Player", "Struct", none, .struct [⟨"name", "String", false, none, none⟩]⟩
    let names : TypeDef := ⟨"Names", "Array", none, .array "String"⟩
    let t : TypeDef := ⟨"String", "Player", none, .union ["Player", "Names"]⟩
    let s : Schema := ⟨"Teams", [player] ++ [names]⟩
    let s' : Schema := ⟨"Teams", [player] ++ t :: [names]⟩
    (∀ u ∈ s.types, u.name ≠ t.name) ∧
      ∃ d d', ofSchema s = .ok d ∧ ofSchema s' = .ok d' ∧
        ((∃ d', ofSchema s' = .ok d') ↔ ∃ o, s'.convert t = .ok o) ∧
        d'.definitions.filter (·.1 ≠ t.name) = d.definitions ∧
        Entries.get? t.name d'.definitions = s'.fragment? t ∧
        ∃ ds es, d.diagnostics = ds ++ es ∧
          d'.diagnostics = ds ++ t.diagnostic?.toList ++ es := by
  intro player names t s s'
  have hnew : ∀ u ∈ s.types, u.name ≠ t.name := by decide
  have htypes : s.types = [player] ++ [names] := rfl
  have htypes' : s'.types = [player] ++ t :: [names] := rfl
  have hadded := added_definition htypes htypes' hnew rfl
  exact ⟨hnew, _, _, rfl, rfl, hadded.1, hadded.2 _ rfl⟩

end Document
end InterfaceSchema
