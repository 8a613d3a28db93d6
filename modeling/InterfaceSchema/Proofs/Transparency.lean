import Mathlib.Logic.Relation
import InterfaceSchema.Proofs.Nearest

/-!
# Types without a definition

A type that comes to no definition, and is no union, is another name for its supertype
(`Registry.Renames`).  Searches pass it, whatever its form, so an element that refers to it is what
one that refers to its supertype is, as long as no union marks the reference.  Integers that
include their format tell the reference by its name, and nothing else does.

* `nearest_of_renames`, `nearestText_of_renames`: both searches pass such a type.
* `alike_of_renames`: and any number of them.
* `renamed_alike`: what elements and fields of the two references come to.
-/

namespace InterfaceSchema

open Draft (Element Content)

instance (t : TypeDef) : Decidable t.IsUnion :=
  match h : t.form with
  | .union variants => isTrue ⟨variants, h⟩
  | .struct _ | .enum _ | .text _ | .map _ | .array _ | .bare => isFalse fun ⟨_, hv⟩ => by
      rw [h] at hv
      cases hv

namespace Registry
variable {reg : Registry}

/-- The name `a` means a type over `b` that is no union and comes to no definition. -/
def Renames (reg : Registry) (a b : String) : Prop :=
  ∃ t, reg.find a = .ok (.declared t) ∧ t.supertype = b ∧ ¬ t.IsUnion ∧
    reg.define (.declared t) = .ok none

/-! ### Searches -/

/-- Where no union is, types are the same to every reference that looks for a definition. -/
theorem findSome?_nearest?_congr {links : List TypeDef} (h : ∀ t ∈ links, ¬ t.IsUnion)
    (reference reference' : String) (base : BaseType) :
    links.findSome? (·.nearest? reference base) = links.findSome? (·.nearest? reference' base) := by
  induction links with
  | nil => rfl
  | cons t links ih =>
      have ht : t.nearest? reference base = t.nearest? reference' base := by
        rw [TypeDef.nearest?, TypeDef.nearest?]
        cases hform : t.form with
        | union variants => exact absurd ⟨variants, hform⟩ (h t List.mem_cons_self)
        | _ => rfl
      rw [List.findSome?_cons, List.findSome?_cons, ht,
        ih fun u hu => h u (List.mem_cons_of_mem t hu)]

theorem not_defines_of_define {t : TypeDef} (h : reg.define (.declared t) = .ok none) :
    ¬ reg.Defines t := fun hdefines =>
  Bool.false_ne_true ((isSome_iff_defines h).2 hdefines)

section
variable {a b : String} {t : TypeDef} {links : List TypeDef} {base : BaseType}

/-- The search for a definition passes a type without one, unless it is a union. -/
theorem nearest?_eq_none (hends : reg.Ends a links (.ok base)) (ht : t ∈ links)
    (hunion : ¬ t.IsUnion) (hdefine : reg.define (.declared t) = .ok none) (reference : String) :
    t.nearest? reference base = none := by
  rw [← Option.not_isSome_iff_eq_none, isSome_nearest?_iff reference hends ht, not_or]
  exact ⟨hunion, not_defines_of_define hdefine⟩

/-- So does the search for a text. -/
theorem nearestTextAt_eq_none (hdefine : reg.define (.declared t) = .ok none) :
    nearestTextAt t = none := by
  rw [← Option.not_isSome_iff_eq_none, isSome_nearestTextAt_iff]
  exact fun hconstrained => not_defines_of_define hdefine (defines_of_constrained hconstrained)

/-- **The search for a definition comes to the same from the supertype** of a type without one. -/
theorem nearest_of_renames (h : reg.Renames a b) (hends : reg.Ends a links (.ok base))
    (hunion : ∀ t ∈ links, ¬ t.IsUnion) : reg.nearest a = reg.nearest b := by
  obtain ⟨t, hfind, rfl, ht, hdefine⟩ := h
  obtain ⟨later, rfl, hup⟩ := hends.of_find hfind
  have hpass := nearest?_eq_none hends List.mem_cons_self ht hdefine a
  have hlater := findSome?_nearest?_congr (fun u hu => hunion u (List.mem_cons_of_mem t hu)) a
    t.supertype base
  rw [nearest_of_ends hends, nearest_of_ends hup, List.findSome?_cons, hpass, hlater]

/-- **The search for a text comes to the same from the supertype** of a type without a
definition. -/
theorem nearestText_of_renames (h : reg.Renames a b) (hends : reg.Ends a links (.ok base)) :
    reg.nearestText a = reg.nearestText b := by
  obtain ⟨t, hfind, rfl, -, hdefine⟩ := h
  obtain ⟨later, rfl, hup⟩ := hends.of_find hfind
  rw [nearestText_of_ends hends, nearestText_of_ends hup, List.findSome?_cons,
    nearestTextAt_eq_none hdefine]

/-- Two names come down to one built-in type, and both searches come to the same from them. -/
structure Alike (reg : Registry) (a b : String) (base : BaseType) : Prop where
  left : reg.Reaches a base
  right : reg.Reaches b base
  nearest : reg.nearest a = reg.nearest b
  nearestText : reg.nearestText a = reg.nearestText b

/-- **Any number of types without a definition are passed**, one after the other. -/
theorem alike_of_renames (h : Relation.ReflTransGen reg.Renames a b)
    (hends : reg.Ends a links (.ok base)) (hunion : ∀ t ∈ links, ¬ t.IsUnion) :
    reg.Alike a b base := by
  induction h using Relation.ReflTransGen.head_induction_on generalizing links with
  | refl => exact ⟨⟨links, hends⟩, ⟨links, hends⟩, rfl, rfl⟩
  | head hstep _ ih =>
      have hnearest := nearest_of_renames hstep hends hunion
      have htext := nearestText_of_renames hstep hends
      obtain ⟨t, hfind, rfl, -, -⟩ := hstep
      obtain ⟨later, rfl, hup⟩ := hends.of_find hfind
      have hrest := ih hup fun u hu => hunion u (List.mem_cons_of_mem t hu)
      exact ⟨⟨_, hends⟩, hrest.right, hnearest.trans hrest.nearest, htext.trans hrest.nearestText⟩

/-! ### Elements and fields -/

/-- An element without formats is told by its searches and its base type. -/
theorem Alike.element_omitted (h : reg.Alike a b base) :
    reg.element .omitted a = reg.element .omitted b := by
  rw [element, element, baseOf_eq_ok_iff.2 h.left, baseOf_eq_ok_iff.2 h.right]
  cases base with
  | string => exact h.nearestText
  | int8 | int16 | int32 | int64 => rfl
  | _ => exact h.nearest

/-- With formats, an integer is told by its name as well. -/
theorem Alike.element_included (h : reg.Alike a b base) :
    reg.element .included a = reg.element .included b ∨
      reg.element .included a = .ok (.integer (some (Text.lower a))) ∧
        reg.element .included b = .ok (.integer (some (Text.lower b))) := by
  rw [element, element, baseOf_eq_ok_iff.2 h.left, baseOf_eq_ok_iff.2 h.right]
  cases base with
  | string => exact .inl h.nearestText
  | int8 => exact .inl rfl
  | int16 | int32 | int64 => exact .inr ⟨rfl, rfl⟩
  | _ => exact .inl h.nearest

/-- A field of a text or an integer is told by the search for a text and its base type. -/
theorem Alike.content_eq (h : reg.Alike a b base)
    (hbase : base ∈ [BaseType.string, .int8, .int16, .int32, .int64]) (f : Field) :
    reg.content { f with type := a } = reg.content { f with type := b } := by
  have ha : reg.Reaches { f with type := a }.type base := h.left
  have hb : reg.Reaches { f with type := b }.type base := h.right
  simp only [List.mem_cons, List.not_mem_nil, or_false] at hbase
  rcases hbase with rfl | rfl | rfl | rfl | rfl
  · rw [content_eq_nearestText ha, content_eq_nearestText hb]
    exact congrArg _ h.nearestText
  all_goals rw [Registry.content_eq ha, Registry.content_eq hb]

/-- **A type that comes to no definition is another name for its supertype**, and so on up, as long
as there is no union on the chain.  Elements come to the same, but for the name that an integer
gives as its format where formats are included; fields of texts and of integers have the same
property. -/
theorem renamed_alike (h : Relation.ReflTransGen reg.Renames a b)
    (hends : reg.Ends a links (.ok base)) (hunion : ∀ t ∈ links, ¬ t.IsUnion) :
    reg.element .omitted a = reg.element .omitted b ∧
      (reg.element .included a = reg.element .included b ∨
        reg.element .included a = .ok (.integer (some (Text.lower a))) ∧
          reg.element .included b = .ok (.integer (some (Text.lower b)))) ∧
      (base ∈ [BaseType.string, .int8, .int16, .int32, .int64] → ∀ f : Field,
        reg.property { f with type := a } = reg.property { f with type := b }) := by
  have halike := alike_of_renames h hends hunion
  refine ⟨halike.element_omitted, halike.element_included, fun hbase f => ?_⟩
  rw [property, property, halike.content_eq hbase f]

/-- An alias of a text without constraints of a text with some, and an alias of an alias of an
integer. -/
theorem renamed_alike_host :
    let home : TypeDef := ⟨"Home", "Host", none, .text ⟨some "", [], none, none⟩⟩
    let base : TypeDef := ⟨"Base", "Home", none, .bare⟩
    let host : TypeDef := ⟨"Host", "String", none, .text ⟨none, [], none, some 255⟩⟩
    let age : TypeDef := ⟨"Age", "Int32", none, .bare⟩
    let years : TypeDef := ⟨"Years", "Age", some "In full.", .bare⟩
    let reg : Registry := ⟨[host, home, base, years, age]⟩
    Relation.ReflTransGen reg.Renames "Base" "Host" ∧
      reg.Ends "Base" [base, home, host] (.ok .string) ∧
      (∀ t ∈ [base, home, host], ¬ t.IsUnion) ∧
      (∀ f : Field, reg.property { f with type := "Base" } =
        reg.property { f with type := "Host" }) ∧
      reg.element .omitted "Base" = .ok (.ref "Host") ∧
      Relation.ReflTransGen reg.Renames "Years" "Int32" ∧
      reg.element .omitted "Years" = reg.element .omitted "Int32" ∧
      reg.element .included "Years" ≠ reg.element .included "Int32" := by
  intro home base host age years reg
  have hhost : Relation.ReflTransGen reg.Renames "Base" "Host" :=
    .head ⟨base, rfl, rfl, by decide, rfl⟩ (.head ⟨home, rfl, rfl, by decide, rfl⟩ .refl)
  have hbase : reg.Ends "Base" [base, home, host] (.ok .string) :=
    .declared rfl (.declared rfl (.declared rfl (.builtIn rfl)))
  have htexts : ∀ t ∈ [base, home, host], ¬ t.IsUnion := by decide
  have hint : Relation.ReflTransGen reg.Renames "Years" "Int32" :=
    .head ⟨years, rfl, rfl, by decide, rfl⟩ (.head ⟨age, rfl, rfl, by decide, rfl⟩ .refl)
  have hyears : reg.Ends "Years" [years, age] (.ok .int32) :=
    .declared rfl (.declared rfl (.builtIn rfl))
  exact ⟨hhost, hbase, htexts, (renamed_alike hhost hbase htexts).2.2 (by decide),
    (renamed_alike hhost hbase htexts).1.trans rfl, hint,
    (renamed_alike hint hyears (by decide)).1, by decide +kernel⟩

end
end Registry
end InterfaceSchema
