import InterfaceSchema.Proofs.References
import InterfaceSchema.Proofs.Lookups

/-!
# The first definition on a chain

Two searches follow the chain of a reference to say what an element or a field refers to.  One
stops at unions and at all types that are of a form with a definition (`nearest`); the other, for
texts, stops at constrained texts only (`nearestText`).  Here both are compared with the types on
the chain that produce a definition when they are converted (`Schema.Produces`).

* `findSome?_decided`: a search comes to what the first type that it stops at is for it.
* `nearest_decided`, `nearestText_decided`: the first search stops at exactly the types that produce
  a definition, and at unions; the second at constrained texts.
* `element_nearest`: an element refers to the first type that produces a definition, unless it comes
  down to a text or an integer.
* `text_reference_iff`: the search for texts comes to the first type that produces a definition
  exactly when that is a constrained text.  Other forms may come down to a string as well, and it
  passes them.
-/

namespace InterfaceSchema

open Draft (Element Content Definition)

/-! ### The first of a list -/

/-- Of those in the list that meet `P`, the first. -/
def FirstOf {α : Type} (P : α → Prop) (l : List α) (a : α) : Prop :=
  ∃ before after, l = before ++ a :: after ∧ P a ∧ ∀ b ∈ before, ¬ P b

/-- Of two places in a list, one is before the other, if they are not the same. -/
theorem eq_or_mem_of_append_eq {α : Type} {a b : α} {before after before' after' : List α}
    (h : before ++ a :: after = before' ++ b :: after') : a = b ∨ a ∈ before' ∨ b ∈ before := by
  rcases List.append_eq_append_iff.1 h with ⟨between, rfl, htail⟩ | ⟨between, rfl, htail⟩
  · cases between with
    | nil => exact .inl (List.cons.inj htail).1
    | cons c between =>
        obtain rfl := (List.cons.inj htail).1
        exact .inr (.inl (by simp))
  · cases between with
    | nil => exact .inl (List.cons.inj htail).1.symm
    | cons c between =>
        obtain rfl := (List.cons.inj htail).1
        exact .inr (.inr (by simp))

namespace FirstOf
variable {α : Type} {P : α → Prop} {l : List α} {a b : α}

theorem holds (h : FirstOf P l a) : P a := by
  obtain ⟨_, _, -, ha, -⟩ := h
  exact ha

theorem mem (h : FirstOf P l a) : a ∈ l := by
  obtain ⟨before, _, rfl, -, -⟩ := h
  exact List.mem_append_right before List.mem_cons_self

theorem unique (h : FirstOf P l a) (h' : FirstOf P l b) : a = b := by
  obtain ⟨before, after, rfl, ha, hbefore⟩ := h
  obtain ⟨before', after', heq, hb, hbefore'⟩ := h'
  rcases eq_or_mem_of_append_eq heq with heq | hmem | hmem
  · exact heq
  · exact absurd ha (hbefore' a hmem)
  · exact absurd hb (hbefore b hmem)

theorem exists_or (P : α → Prop) (l : List α) : (∃ a, FirstOf P l a) ∨ ∀ a ∈ l, ¬ P a := by
  induction l with
  | nil => exact .inr nofun
  | cons b l ih =>
      by_cases hb : P b
      · exact .inl ⟨b, [], l, rfl, hb, nofun⟩
      · rcases ih with ⟨a, before, after, rfl, ha, hbefore⟩ | hnone
        · exact .inl ⟨a, b :: before, after, rfl, ha, List.forall_mem_cons.2 ⟨hb, hbefore⟩⟩
        · exact .inr (List.forall_mem_cons.2 ⟨hb, hnone⟩)

end FirstOf

/-- **A search comes to what the first that it stops at is for it.** -/
theorem findSome?_decided {α β : Type} {pick : α → Option β} {P : α → Prop} {l : List α}
    (h : ∀ a ∈ l, (pick a).isSome = true ↔ P a) :
    (∃ a b, FirstOf P l a ∧ pick a = some b ∧ l.findSome? pick = some b) ∨
      (∀ a ∈ l, ¬ P a) ∧ l.findSome? pick = none := by
  cases hfound : l.findSome? pick with
  | some b =>
      obtain ⟨before, a, after, rfl, ha, hbefore⟩ := List.findSome?_eq_some_iff.1 hfound
      refine .inl ⟨a, b, ⟨before, after, rfl, (h a (by simp)).1 (by simp [ha]), ?_⟩, ha, rfl⟩
      intro c hc hP
      have hsome := (h c (by simp [hc])).2 hP
      simp [hbefore c hc] at hsome
  | none =>
      refine .inr ⟨fun a ha hP => ?_, rfl⟩
      have hsome := (h a ha).2 hP
      simp [List.findSome?_eq_none_iff.1 hfound a ha] at hsome

/-! ### Types that a search stops at -/

def TypeDef.IsUnion (t : TypeDef) : Prop := ∃ variants, t.form = .union variants

/-- The type is a text that says what it must meet. -/
def TypeDef.Constrained (t : TypeDef) : Prop := ∃ c, t.form = .text c ∧ c.any = true

namespace Registry
variable {reg : Registry}

theorem nearest?_of_isUnion {t : TypeDef} (h : t.IsUnion) (reference : String)
    (base : BaseType) : t.nearest? reference base = some (.unmapped reference) := by
  obtain ⟨variants, hform⟩ := h
  rw [TypeDef.nearest?, hform]

/-- On a chain the search for a definition stops at the types that are of a form with one. -/
theorem nearest?_of_defines {name reference : String} {links : List TypeDef} {base : BaseType}
    (h : reg.Ends name links (.ok base)) {t : TypeDef} (ht : t ∈ links) (hdefines : reg.Defines t) :
    t.nearest? reference base = some (.ref t.name) := by
  rw [Defines] at hdefines
  rw [TypeDef.nearest?]
  cases hform : t.form with
  | struct _ | enum _ | map _ | array _ => rfl
  | text c =>
      simp only [hform] at hdefines
      simp [hdefines]
  | union _ =>
      simp only [hform] at hdefines
  | bare =>
      simp only [hform] at hdefines
      -- what an alias comes down to is what the whole chain comes down to
      simp [(h.reaches_supertype ht).unique hdefines]

/-- It stops at no others but unions. -/
theorem isSome_nearest?_iff {name : String} (reference : String) {links : List TypeDef}
    {base : BaseType} (h : reg.Ends name links (.ok base)) {t : TypeDef} (ht : t ∈ links) :
    (t.nearest? reference base).isSome = true ↔ t.IsUnion ∨ reg.Defines t := by
  constructor
  · intro hsome
    obtain ⟨e, he⟩ := Option.isSome_iff_exists.1 hsome
    cases href : e.ref? with
    | some n => exact .inr (defines_of_nearest? h ht he href).2
    | none =>
        -- all that it stops at is referred to, except for unions
        rw [TypeDef.nearest?] at he
        cases hform : t.form with
        | union variants => exact .inl ⟨variants, hform⟩
        | struct _ | enum _ | map _ | array _ =>
            simp only [hform] at he
            cases he
            cases href
        | text _ | bare =>
            simp only [hform] at he
            split at he
            · cases he
              cases href
            · cases he
  · rintro (hunion | hdefines)
    · rw [nearest?_of_isUnion hunion]
      rfl
    · rw [nearest?_of_defines h ht hdefines]
      rfl

theorem nearestTextAt_of_constrained {t : TypeDef} (h : t.Constrained) :
    nearestTextAt t = some (.ref t.name) := by
  obtain ⟨c, hform, hany⟩ := h
  simp [nearestTextAt, hform, hany]

theorem isSome_nearestTextAt_iff {t : TypeDef} :
    (nearestTextAt t).isSome = true ↔ t.Constrained := by
  rw [nearestTextAt, TypeDef.Constrained]
  cases t.form with
  | text c => by_cases hany : c.any <;> simp [hany]
  | _ => simp

theorem defines_of_constrained {t : TypeDef} (h : t.Constrained) : reg.Defines t := by
  obtain ⟨c, hform, hany⟩ := h
  rw [Defines, hform]
  exact hany

/-! ### What the searches come to -/

variable {name : String} {links : List TypeDef} {base : BaseType}

/-- **The search for a definition** comes to the first type on the chain that is a union or meets
`P`, which says that its form has a definition, or else to the built-in type at the end. -/
theorem nearest_decided (h : reg.Ends name links (.ok base)) {P : TypeDef → Prop}
    (hP : ∀ t ∈ links, P t ↔ reg.Defines t) :
    (∃ t, FirstOf (fun t => t.IsUnion ∨ P t) links t ∧
      (t.IsUnion ∧ reg.nearest name = .ok (.unmapped name) ∨
        ¬ t.IsUnion ∧ P t ∧ reg.nearest name = .ok (.ref t.name))) ∨
      (∀ t ∈ links, ¬ t.IsUnion ∧ ¬ P t) ∧ reg.nearest name = .ok (.ref base.name) := by
  have hstops : ∀ t ∈ links, (t.nearest? name base).isSome = true ↔ t.IsUnion ∨ P t :=
    fun t ht => by rw [hP t ht]; exact isSome_nearest?_iff name h ht
  rw [nearest_of_ends h]
  rcases findSome?_decided hstops with ⟨t, e, hfirst, he, hfound⟩ | ⟨hnone, hfound⟩
  · refine .inl ⟨t, hfirst, ?_⟩
    rw [hfound]
    by_cases hunion : t.IsUnion
    · rw [nearest?_of_isUnion hunion] at he
      exact .inl ⟨hunion, he ▸ rfl⟩
    · have hmeets := hfirst.holds.resolve_left hunion
      rw [nearest?_of_defines h hfirst.mem ((hP t hfirst.mem).1 hmeets)] at he
      exact .inr ⟨hunion, hmeets, he ▸ rfl⟩
  · rw [hfound]
    exact .inr ⟨fun t ht => not_or.1 (hnone t ht), rfl⟩

/-- **The search for a text** comes to the first constrained text, or else to any string. -/
theorem nearestText_decided (h : reg.Ends name links (.ok base)) :
    (∃ t, FirstOf TypeDef.Constrained links t ∧ reg.nearestText name = .ok (.ref t.name)) ∨
      (∀ t ∈ links, ¬ t.Constrained) ∧ reg.nearestText name = .ok .string := by
  rw [nearestText_of_ends h]
  rcases findSome?_decided fun t (_ : t ∈ links) => isSome_nearestTextAt_iff (t := t) with
    ⟨t, e, hfirst, he, hfound⟩ | ⟨hnone, hfound⟩
  · rw [nearestTextAt_of_constrained hfirst.holds] at he
    rw [hfound]
    exact .inl ⟨t, hfirst, he ▸ rfl⟩
  · rw [hfound]
    exact .inr ⟨hnone, rfl⟩

/-- What is neither a text nor an integer is searched for a definition. -/
theorem element_eq_nearest (h : reg.Reaches name base)
    (hbase : base ∉ [BaseType.string, .int8, .int16, .int32, .int64]) (format : IntegerFormat) :
    reg.element format name = reg.nearest name := by
  rw [element, baseOf_eq_ok_iff.2 h]
  cases base <;> simp at hbase ⊢

/-- What comes down to a text is searched for a text, as a field and as an element. -/
theorem element_eq_nearestText (h : reg.Reaches name .string) (format : IntegerFormat) :
    reg.element format name = reg.nearestText name := by
  rw [element, baseOf_eq_ok_iff.2 h]

theorem content_eq_nearestText {f : Field} (h : reg.Reaches f.type .string) :
    reg.content f = (reg.nearestText f.type).map .element :=
  content_eq h

/-- A type on a chain is what its name means. -/
theorem Ends.find_of_mem {r : Except LookupError BaseType} (h : reg.Ends name links r)
    {t : TypeDef} (ht : t ∈ links) : reg.find t.name = .ok (.declared t) := by
  obtain ⟨after, hafter, -⟩ := h.from ht
  cases hafter with
  | declared hf _ => exact hf

end Registry

/-! ### Types that produce a definition -/

/-- The type comes to a definition when it is converted. -/
def Schema.Produces (s : Schema) (t : TypeDef) : Prop := ∃ v, s.convert t = .ok (some v)

/-- A union comes before all types that meet `P`. -/
def UnionBefore (P : TypeDef → Prop) (links : List TypeDef) : Prop :=
  ∃ before u after, links = before ++ u :: after ∧ u.IsUnion ∧ ∀ t ∈ before, ¬ P t

/-- The element refers to the first type on the chain that produces a definition, or is any string
if there is none. -/
def Schema.RefersToFirst (s : Schema) (links : List TypeDef) (e : Element) : Prop :=
  (∃ t, FirstOf s.Produces links t ∧ e = .ref t.name) ∨
    (∀ t ∈ links, ¬ s.Produces t) ∧ e = .string

/-- Where a union comes first, the first that is a union or meets `P` is one. -/
theorem FirstOf.isUnion_of_unionBefore {P : TypeDef → Prop} {links : List TypeDef} {t : TypeDef}
    (hfirst : FirstOf (fun t => t.IsUnion ∨ P t) links t) (h : UnionBefore P links) :
    t.IsUnion := by
  obtain ⟨before, after, rfl, ht, hbefore⟩ := hfirst
  obtain ⟨before', u, after', heq, hunion, hbefore'⟩ := h
  rcases eq_or_mem_of_append_eq heq with rfl | hmem | hmem
  · exact hunion
  · exact ht.resolve_right (hbefore' t hmem)
  · exact absurd (.inl hunion) (hbefore u hmem)

namespace Document

variable {s : Schema} {d : Document} {reference : String} {links : List TypeDef} {base : BaseType}

theorem produces_iff_defines (h : ofSchema s = .ok d) {t : TypeDef} (ht : t ∈ s.types) :
    s.Produces t ↔ (Registry.ofSchema s).Defines t := by
  constructor
  · rintro ⟨v, hv⟩
    exact (Registry.isSome_iff_defines hv).1 rfl
  · exact exists_convert_of_defines h ht

theorem mem_names_of_produces (h : ofSchema s = .ok d) {t : TypeDef} (ht : t ∈ s.types)
    (hproduces : s.Produces t) : t.name ∈ Entries.names d.definitions :=
  (mem_names_definitions_iff h).2 ⟨t, ht, rfl, (produces_iff_defines h ht).1 hproduces⟩

/-- **An element that is neither a text nor an integer refers to the first type on its chain that
produces a definition**, which is there under its name, or to the built-in type at the end.  A union
before that leaves it unmapped. -/
theorem element_nearest (h : ofSchema s = .ok d)
    (hends : (Registry.ofSchema s).Ends reference links (.ok base))
    (hbase : base ∉ [BaseType.string, .int8, .int16, .int32, .int64]) (format : IntegerFormat) :
    let schema := ((Registry.ofSchema s).element format reference).map Element.toJson
    (UnionBefore s.Produces links →
      schema = .ok (.obj [("type", .str ("_" ++ reference ++ "_"))])) ∧
    (¬ UnionBefore s.Produces links →
      ∃ n, schema = .ok (.obj [("$ref", .str ("#/definitions/" ++ n))]) ∧
        ((∃ t, FirstOf s.Produces links t ∧ t.name = n ∧
            (Registry.ofSchema s).find n = .ok (.declared t) ∧ n ∈ Entries.names d.definitions) ∨
          (∀ t ∈ links, ¬ s.Produces t) ∧ base.name = n)) := by
  have hproduces : ∀ t ∈ links, s.Produces t ↔ (Registry.ofSchema s).Defines t := fun t ht =>
    produces_iff_defines h (hends.mem_types ht)
  rw [Registry.element_eq_nearest ⟨links, hends⟩ hbase]
  rcases Registry.nearest_decided hends hproduces with
    ⟨t, hfirst, ⟨hunion, hnearest⟩ | ⟨hunion, hmeets, hnearest⟩⟩ | ⟨hnone, hnearest⟩
  · rw [hnearest]
    refine ⟨fun _ => rfl, fun hno => absurd ?_ hno⟩
    obtain ⟨before, after, hlinks, -, hbefore⟩ := hfirst
    exact ⟨before, t, after, hlinks, hunion, fun u hu hP => hbefore u hu (.inr hP)⟩
  · rw [hnearest]
    refine ⟨fun hyes => absurd (hfirst.isUnion_of_unionBefore hyes) hunion, fun _ => ?_⟩
    have ht := hends.mem_types hfirst.mem
    obtain ⟨before, after, hlinks, -, hbefore⟩ := hfirst
    refine ⟨t.name, rfl, .inl ⟨t, ⟨before, after, hlinks, hmeets, fun u hu hP => ?_⟩, rfl,
      hends.find_of_mem (hlinks ▸ by simp), mem_names_of_produces h ht hmeets⟩⟩
    exact hbefore u hu (.inr hP)
  · rw [hnearest]
    refine ⟨?_, fun _ => ⟨base.name, rfl, .inr ⟨fun t ht => (hnone t ht).2, rfl⟩⟩⟩
    rintro ⟨before, u, after, hlinks, hunion, -⟩
    exact absurd hunion (hnone u (hlinks ▸ by simp)).1

/-- Two texts without constraints: one over a list, which it refers to, and one over a union that
comes before this list. -/
theorem element_nearest_lists :
    let names : TypeDef := ⟨"Names", "Array", none, .array "String"⟩
    let few : TypeDef := ⟨"Few", "Names", none, .text ⟨some "", [], none, none⟩⟩
    let either : TypeDef := ⟨"Either", "Few", none, .union ["Few"]⟩
    let many : TypeDef := ⟨"Many", "Either", none, .text ⟨some "", [], none, none⟩⟩
    let s : Schema := ⟨"Lists", [names, few, either, many]⟩
    let reg := Registry.ofSchema s
    ∃ d, ofSchema s = .ok d ∧ reg.Ends "Few" [few, names] (.ok .array) ∧
      reg.Ends "Many" [many, either, few, names] (.ok .array) ∧
      ¬ UnionBefore s.Produces [few, names] ∧
      (∃ n, (reg.element .included "Few").map Element.toJson =
          .ok (.obj [("$ref", .str ("#/definitions/" ++ n))]) ∧
        ((∃ t, FirstOf s.Produces [few, names] t ∧ t.name = n ∧ reg.find n = .ok (.declared t) ∧
            n ∈ Entries.names d.definitions) ∨
          (∀ t ∈ [few, names], ¬ s.Produces t) ∧ BaseType.array.name = n)) ∧
      UnionBefore s.Produces [many, either, few, names] ∧
      (reg.element .included "Many").map Element.toJson =
        .ok (.obj [("type", .str ("_" ++ "Many" ++ "_"))]) := by
  intro names few either many s reg
  obtain ⟨d, h⟩ : ∃ d, ofSchema s = .ok d := ⟨_, rfl⟩
  have hfew : reg.Ends "Few" [few, names] (.ok .array) :=
    .declared rfl (.declared rfl (.builtIn rfl))
  have hmany : reg.Ends "Many" [many, either, few, names] (.ok .array) :=
    .declared rfl (.declared rfl hfew)
  have hno : ¬ UnionBefore s.Produces [few, names] := by
    rintro ⟨before, u, after, hlinks, ⟨variants, hform⟩, -⟩
    have hu : u ∈ [few, names] := hlinks ▸ by simp
    simp only [List.mem_cons, List.not_mem_nil, or_false] at hu
    rcases hu with rfl | rfl <;> cases hform
  have hyes : UnionBefore s.Produces [many, either, few, names] := by
    refine ⟨[many], either, [few, names], rfl, ⟨["Few"], rfl⟩, List.forall_mem_singleton.2 ?_⟩
    rintro ⟨v, hv⟩
    cases hv
  exact ⟨d, h, hfew, hmany, hno, (element_nearest h hfew (by decide) .included).2 hno, hyes,
    (element_nearest h hmany (by decide) .included).1 hyes⟩

/-! ### Texts -/

/-- What a text refers to is the first type on its chain that produces a definition exactly when
this is a constrained text. -/
theorem refersToFirst_iff {reg : Registry} (hends : reg.Ends reference links (.ok base))
    (hproduces : ∀ t ∈ links, t.Constrained → s.Produces t) {e : Element}
    (he : (∃ t, FirstOf TypeDef.Constrained links t ∧ e = .ref t.name) ∨
      (∀ t ∈ links, ¬ t.Constrained) ∧ e = .string) :
    s.RefersToFirst links e ↔ ∀ t, FirstOf s.Produces links t → t.Constrained := by
  constructor
  · rintro (⟨t, hfirst, rfl⟩ | ⟨hnone, -⟩) u hu
    · obtain rfl := hu.unique hfirst
      rcases he with ⟨v, hv, hname⟩ | ⟨-, hstring⟩
      · -- no two types on a chain have one name
        have hfind := hends.find_of_mem hu.mem
        rw [Element.ref.inj hname, hends.find_of_mem hv.mem] at hfind
        obtain rfl := Referent.declared.inj (Except.ok.inj hfind)
        exact hv.holds
      · cases hstring
    · exact absurd hu.holds (hnone u hu.mem)
  · intro hcondition
    rcases FirstOf.exists_or s.Produces links with ⟨t, ht⟩ | hnone
    · have hfirst : FirstOf TypeDef.Constrained links t := by
        have hconstrained := hcondition t ht
        obtain ⟨before, after, rfl, -, hbefore⟩ := ht
        exact ⟨before, after, rfl, hconstrained, fun u hu huc =>
          hbefore u hu (hproduces u (by simp [hu]) huc)⟩
      rcases he with ⟨v, hv, rfl⟩ | ⟨hnot, -⟩
      · obtain rfl := hv.unique hfirst
        exact .inl ⟨v, ht, rfl⟩
      · exact absurd hfirst.holds (hnot t hfirst.mem)
    · rcases he with ⟨v, hv, -⟩ | ⟨-, rfl⟩
      · exact absurd (hproduces v hv.mem hv.holds) (hnone v hv.mem)
      · exact .inr ⟨hnone, rfl⟩

/-- **A text refers to the first constrained text on its chain**, as a field and as an element, or
is any string.  That is the first type that produces a definition exactly when this is a constrained
text. -/
theorem text_reference_iff (h : ofSchema s = .ok d)
    (hends : (Registry.ofSchema s).Ends reference links (.ok .string)) :
    ∃ e, (∀ format, (Registry.ofSchema s).element format reference = .ok e) ∧
      (∀ f : Field, f.type = reference → (Registry.ofSchema s).content f = .ok (.element e)) ∧
      ((∃ t, FirstOf TypeDef.Constrained links t ∧ e = .ref t.name) ∨
        (∀ t ∈ links, ¬ t.Constrained) ∧ e = .string) ∧
      (s.RefersToFirst links e ↔ ∀ t, FirstOf s.Produces links t → t.Constrained) := by
  have hreaches : (Registry.ofSchema s).Reaches reference .string := ⟨links, hends⟩
  have hproduces : ∀ t ∈ links, t.Constrained → s.Produces t := fun t ht hc =>
    (produces_iff_defines h (hends.mem_types ht)).2 (Registry.defines_of_constrained hc)
  obtain ⟨e, he, hfound⟩ : ∃ e, (Registry.ofSchema s).nearestText reference = .ok e ∧
      ((∃ t, FirstOf TypeDef.Constrained links t ∧ e = .ref t.name) ∨
        (∀ t ∈ links, ¬ t.Constrained) ∧ e = .string) := by
    rcases Registry.nearestText_decided hends with ⟨t, hfirst, he⟩ | ⟨hnone, he⟩
    · exact ⟨_, he, .inl ⟨t, hfirst, rfl⟩⟩
    · exact ⟨_, he, .inr ⟨hnone, rfl⟩⟩
  refine ⟨e, fun format => ?_, ?_, hfound, refersToFirst_iff hends hproduces hfound⟩
  · rw [Registry.element_eq_nearestText hreaches, he]
  · rintro f rfl
    rw [Registry.content_eq_nearestText hreaches, he]
    rfl

/-- Another name for a text without constraints of a text with one. -/
theorem text_reference_iff_host :
    let s : Schema := ⟨"Hosts", [⟨"Host", "String", none, .text ⟨none, [], none, some 255⟩⟩,
      ⟨"Home", "Host", none, .text ⟨some "", [], none, none⟩⟩, ⟨"Base", "Home", none, .bare⟩]⟩
    let reg := Registry.ofSchema s
    ∃ d links, ofSchema s = .ok d ∧ reg.Ends "Base" links (.ok .string) ∧
      ∃ e, (∀ format, reg.element format "Base" = .ok e) ∧
        (∀ f : Field, f.type = "Base" → reg.content f = .ok (.element e)) ∧
        ((∃ t, FirstOf TypeDef.Constrained links t ∧ e = .ref t.name) ∨
          (∀ t ∈ links, ¬ t.Constrained) ∧ e = .string) ∧
        (s.RefersToFirst links e ↔ ∀ t, FirstOf s.Produces links t → t.Constrained) ∧
        e = .ref "Host" := by
  intro s reg
  have hends : reg.Ends "Base" _ (.ok .string) :=
    .declared rfl (.declared rfl (.declared rfl (.builtIn rfl)))
  obtain ⟨e, helement, hcontent, hfound, hiff⟩ := text_reference_iff (s := s) rfl hends
  exact ⟨_, _, rfl, hends, e, helement, hcontent, hfound, hiff,
    Except.ok.inj (helement .omitted).symm⟩

/-- An enum that comes down to a string has a definition, but its fields do not refer to it. -/
theorem text_reference_passes_enum :
    let s : Schema := ⟨"Flags", [⟨"Flag", "String", none, .enum ["on"]⟩,
      ⟨"S", "Struct", none, .struct [⟨"f", "Flag", false, none, none⟩]⟩]⟩
    let reg := Registry.ofSchema s
    ∃ d links, ofSchema s = .ok d ∧ reg.Ends "Flag" links (.ok .string) ∧
      ¬ ∃ e, (∀ format, reg.element format "Flag" = .ok e) ∧
        (∀ f : Field, f.type = "Flag" → reg.content f = .ok (.element e)) ∧
        s.RefersToFirst links e := by
  intro s reg
  refine ⟨_, _, rfl, .declared rfl (.builtIn rfl), ?_⟩
  rintro ⟨e, helement, -, hfirst⟩
  obtain rfl : Element.string = e := Except.ok.inj (helement .omitted)
  rcases hfirst with ⟨t, -, hname⟩ | ⟨hnone, -⟩
  · cases hname
  · exact hnone _ List.mem_cons_self ⟨_, rfl⟩

end Document
end InterfaceSchema
