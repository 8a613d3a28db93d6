import InterfaceSchema.Proofs.Conversion

/-!
# Registries that extend others

A registry extends another when every name that means something there means the same in it.  It
may know more names.

What can be done over a registry is done alike over one that extends it.  A chain that ends at a
built-in type meets names that mean something, and no others, so it is the same chain
(`Ends.of_extends`); the searches of it stop where they did.  Only a failure may go away: a name
that meant nothing may mean something now.

* `element_of_extends`, `content_of_extends`, `properties_of_extends`: the parts of definitions.
* `define_of_extends`: a type that can be converted comes to the same definition.
* `extends_of_perm`: the order in which types of different names are declared does not matter to
  what they mean.
* `extends_of_insert`: a type of a new name takes no meaning away, wherever it is declared.
-/

namespace InterfaceSchema

open Draft (Element Content Property Body Definition)

namespace Registry
variable {reg reg' : Registry}

/-- Whatever a name means in `reg`, it means in `reg'`. -/
def Extends (reg' reg : Registry) : Prop :=
  ∀ name m, reg.find name = .ok m → reg'.find name = .ok m

/-! ### Chains -/

/-- **A chain that ends well is the same chain in a registry that knows more.** -/
theorem Ends.of_extends (hext : reg'.Extends reg) {name : String} {links : List TypeDef}
    {base : BaseType} (h : reg.Ends name links (.ok base)) : reg'.Ends name links (.ok base) := by
  generalize hr : (Except.ok base : Except LookupError BaseType) = r at h ⊢
  induction h with
  | builtIn hf => exact .builtIn (hext _ _ hf)
  | unknown _ => cases hr
  | declared hf _ ih => exact .declared (hext _ _ hf) (ih hr)

theorem Reaches.of_extends (hext : reg'.Extends reg) {name : String} {base : BaseType}
    (h : reg.Reaches name base) : reg'.Reaches name base := by
  obtain ⟨links, hends⟩ := h
  exact ⟨links, hends.of_extends hext⟩

/-! ### Parts of definitions -/

theorem element_of_extends (hext : reg'.Extends reg) {format : IntegerFormat} {items : String}
    {e : Element} (h : reg.element format items = .ok e) : reg'.element format items = .ok e := by
  obtain ⟨base, links, hends⟩ := exists_element_iff.1 ⟨e, h⟩
  have hends' := hends.of_extends hext
  rw [element, baseOf_of_ends hends] at h
  rw [element, baseOf_of_ends hends']
  cases base with
  | string =>
      rw [← h]
      exact (nearestText_of_ends hends').trans (nearestText_of_ends hends).symm
  | int8 | int16 | int32 | int64 => exact h
  | _ =>
      rw [← h]
      exact (nearest_of_ends hends').trans (nearest_of_ends hends).symm

theorem elements_of_extends (hext : reg'.Extends reg) {format : IntegerFormat}
    {items : Option String} {held : Option Element} (h : reg.elements format items = .ok held) :
    reg'.elements format items = .ok held := by
  cases items with
  | none => exact h
  | some items =>
      by_cases hany : items = anyName
      · simpa only [elements, hany, if_true] using h
      · simp only [elements, hany, if_false] at h ⊢
        obtain ⟨e, he, hheld⟩ := map_eq_ok_iff.1 h
        exact map_eq_ok_iff.2 ⟨e, element_of_extends hext he, hheld⟩

theorem content_of_extends (hext : reg'.Extends reg) {f : Field} {c : Content}
    (h : reg.content f = .ok c) : reg'.content f = .ok c := by
  rcases reg.reaches_or_fails f.type with ⟨base, hb⟩ | ⟨e, he⟩
  · obtain ⟨m, hm, hbase⟩ := find_of_reaches hb
    obtain ⟨links, hends⟩ := hb
    have hends' := hends.of_extends hext
    -- the type of the field means the same, and comes down to the same
    have hm' := hext _ _ hm
    have hbase' : reg'.baseOfReferent m = .ok base :=
      (baseOfReferent_of_find hm').trans (baseOf_of_ends hends')
    simp only [content, hm, hbase] at h
    simp only [content, hm', hbase']
    cases base with
    | array | map =>
        obtain ⟨held, hheld, hc⟩ := map_eq_ok_iff.1 h
        exact map_eq_ok_iff.2 ⟨held, elements_of_extends hext hheld, hc⟩
    | string =>
        rw [← h]
        exact congrArg (Except.map Content.element)
          ((nearestText_of_ends hends').trans (nearestText_of_ends hends).symm)
    | _ => exact h
  · rw [content_of_fails he] at h
    cases h

theorem property_of_extends (hext : reg'.Extends reg) {f : Field} {p : Property}
    (h : reg.property f = .ok p) : reg'.property f = .ok p := by
  obtain ⟨c, hc, hp⟩ := map_eq_ok_iff.1 h
  exact map_eq_ok_iff.2 ⟨c, content_of_extends hext hc, hp⟩

theorem properties_of_extends (hext : reg'.Extends reg) {fields : List Field}
    {ps : Entries Property} (h : reg.properties fields = .ok ps) :
    reg'.properties fields = .ok ps := by
  rw [properties_eq] at h ⊢
  obtain ⟨rs, hrs, hps⟩ := map_eq_ok_iff.1 h
  obtain ⟨hfields, hall⟩ := collect_eq_ok_iff.1 hrs
  refine map_eq_ok_iff.2 ⟨rs, collect_eq_ok_iff.2 ⟨hfields, fun r hr => ?_⟩, hps⟩
  exact property_of_extends hext (hall r hr)

/-! ### Definitions -/

theorem body_of_extends (hext : reg'.Extends reg) {t : TypeDef} {o : Option Body}
    (h : reg.body t = .ok o) : reg'.body t = .ok o := by
  refine body_eq_ok_iff.2 ?_
  cases body_eq_ok_iff.1 h with
  | struct hform hps => exact .struct hform (properties_of_extends hext hps)
  | array hform hb hheld =>
      exact .array hform (hb.of_extends hext) (elements_of_extends hext hheld)
  | map hform hheld => exact .map hform (elements_of_extends hext hheld)
  | enum hform => exact .enum hform
  | text hform hany => exact .text hform hany
  | plainText hform hany => exact .plainText hform hany
  | union hform => exact .union hform
  | structAlias hform hb => exact .structAlias hform (hb.of_extends hext)
  | plainAlias hform hb hplain => exact .plainAlias hform (hb.of_extends hext) hplain

/-- **A type that can be converted comes to the same definition over a registry that knows
more.** -/
theorem define_of_extends (hext : reg'.Extends reg) {t : TypeDef} {o : Option Definition}
    (h : reg.define (.declared t) = .ok o) : reg'.define (.declared t) = .ok o := by
  obtain ⟨body, hbody, ho⟩ := map_eq_ok_iff.1 h
  exact map_eq_ok_iff.2 ⟨body, body_of_extends hext hbody, ho⟩

/-! ### Changes that take no meaning away -/

/-- The built-in types are the same everywhere, so it is for the declared names to keep their
types. -/
theorem extends_of_declared?
    (h : ∀ name t, reg.declared? name = some t → reg'.declared? name = some t) :
    reg'.Extends reg := by
  intro name m hm
  cases m with
  | builtIn b => exact find_eq_builtIn_iff.2 (find_eq_builtIn_iff.1 hm)
  | declared t =>
      obtain ⟨hbuiltIn, ht⟩ := find_eq_declared_iff.1 hm
      exact find_eq_declared_iff.2 ⟨hbuiltIn, h name t ht⟩

/-- Where all names are different, every type is the last of its name. -/
theorem declared?_eq_some_iff_mem (hnames : (reg.types.map (·.name)).Nodup) {name : String}
    {t : TypeDef} : reg.declared? name = some t ↔ t ∈ reg.types ∧ t.name = name := by
  constructor
  · intro h
    exact ⟨mem_of_declared? h, (declared?_eq_some_iff.1 h).1⟩
  · rintro ⟨ht, rfl⟩
    obtain ⟨before, after, htypes⟩ := List.append_of_mem ht
    refine declared?_eq_some_iff.2 ⟨rfl, before, after, htypes, fun u hu hname => ?_⟩
    rw [htypes, List.map_append, List.map_cons, List.nodup_append, List.nodup_cons] at hnames
    exact hnames.2.1.1 (hname ▸ List.mem_map_of_mem hu)

/-- **The order in which types of different names are declared does not matter to what they
mean.** -/
theorem extends_of_perm (hperm : reg.types.Perm reg'.types)
    (hnames : (reg.types.map (·.name)).Nodup) : reg'.Extends reg := by
  have hnames' : (reg'.types.map (·.name)).Nodup := (hperm.map _).nodup_iff.1 hnames
  refine extends_of_declared? fun name t ht => ?_
  rw [declared?_eq_some_iff_mem hnames] at ht
  rw [declared?_eq_some_iff_mem hnames']
  exact ⟨hperm.mem_iff.1 ht.1, ht.2⟩

/-- **A type of a new name takes no meaning away**, wherever it is declared. -/
theorem extends_of_insert {before after : List TypeDef} {t : TypeDef}
    (htypes : reg.types = before ++ after) (htypes' : reg'.types = before ++ t :: after)
    (hnew : ∀ u ∈ reg.types, u.name ≠ t.name) : reg'.Extends reg := by
  refine extends_of_declared? fun name u hu => ?_
  have hne : t.name ≠ name := by
    rw [← (declared?_eq_some_iff.1 hu).1]
    exact (hnew u (mem_of_declared? hu)).symm
  -- the search for the name passes the new type by
  rw [declared?, htypes] at hu
  rw [declared?, htypes', ← hu]
  simp [List.find?_append, hne]

end Registry
end InterfaceSchema
