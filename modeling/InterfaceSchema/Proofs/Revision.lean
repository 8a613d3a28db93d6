import InterfaceSchema.Proofs.Document

/-!
# Types revised one by one

A revision puts another type in the place of every declared one.  Where it keeps the names and the
supertypes, every name leads where it did; where it also keeps what a search of a chain asks of a
type (`Registry.Keeps`), elements and the contents of fields have the schemas that they had.  What
a revision does to the definitions of single types, it then does to the whole document.

* `baseOf_map`, `baseOf_congr`: chains end where they did.
* `element_map`, `content_map`: references come to the same schemas.
* `properties_map`: properties of fields that are revised one by one.
* `ofSchema_map`: documents of types that are revised one by one.
-/

namespace InterfaceSchema

open Draft (Element Content Property Body Definition)

def Referent.map (F : TypeDef → TypeDef) : Referent → Referent
  | .builtIn b  => .builtIn b
  | .declared t => .declared (F t)

/-- The type as look-ups see it. -/
def TypeDef.skeleton (t : TypeDef) : TypeDef := { t with comment := none, form := .bare }

def Schema.map (F : TypeDef → TypeDef) (s : Schema) : Schema := { s with types := s.types.map F }

namespace Registry

def map (F : TypeDef → TypeDef) (reg : Registry) : Registry := ⟨reg.types.map F⟩

theorem ofSchema_map (F : TypeDef → TypeDef) (s : Schema) :
    ofSchema (s.map F) = (ofSchema s).map F :=
  rfl

/-- The revision keeps what look-ups see of a type. -/
structure KeepsChains (F : TypeDef → TypeDef) : Prop where
  name (t : TypeDef) : (F t).name = t.name
  supertype (t : TypeDef) : (F t).supertype = t.supertype

/-- The revision also keeps what searches of chains see of it. -/
structure Keeps (reg : Registry) (F : TypeDef → TypeDef) : Prop extends KeepsChains F where
  nearest (reference : String) (t : TypeDef) :
    reg.nearestAt reference (F t) = reg.nearestAt reference t
  nearestText (t : TypeDef) : nearestTextAt (F t) = nearestTextAt t
  items (t : TypeDef) (base : BaseType) : (F t).itemsAs? base = t.itemsAs? base

variable {reg : Registry} {F : TypeDef → TypeDef}

/-! ### Chains -/

section
variable (hF : KeepsChains F)
include hF

theorem KeepsChains.names : ((reg.map F).types.map (·.name)) = reg.types.map (·.name) := by
  simp [map, hF.name, Function.comp_def]

theorem size_map : (reg.map F).size = reg.size := by
  rw [size, hF.names, size]

/-- Under a name stands the revision of what stood there. -/
theorem declared?_map (name : String) :
    (reg.map F).declared? name = (reg.declared? name).map F := by
  simp only [declared?, map, ← List.map_reverse, List.find?_map]
  congr 2
  funext t
  exact congrArg (· == name) (hF.name t)

/-- A name means what it meant, revised. -/
theorem find_map (name : String) : (reg.map F).find name = (reg.find name).map (·.map F) := by
  rw [find, find, declared?_map hF]
  cases BaseType.ofName? name with
  | some b => rfl
  | none => cases reg.declared? name <;> rfl

variable {α : Type} {top : BaseType → α} {stop stop' : TypeDef → Except LookupError (Option α)}

/-- **A walk that stops at the types in whose places it stopped** comes to the same. -/
theorem walk_map (hstop : ∀ t, stop' (F t) = stop t) (start : String) (n : Nat) (name : String) :
    (reg.map F).walk top stop' start n name = reg.walk top stop start n name := by
  induction n generalizing name with
  | zero => rfl
  | succ n ih =>
      rw [walk, walk, find_map hF]
      cases reg.find name with
      | error e => rfl
      | ok m =>
          cases m with
          | builtIn b => rfl
          | declared t => simp only [Except.map, Referent.map, hstop, hF.supertype, ih]

/-- A search that sees nothing of the revision comes to the same. -/
theorem climb_map (hstop : ∀ t, stop' (F t) = stop t) (name : String) :
    (reg.map F).climb top stop' name = reg.climb top stop name := by
  rw [climb, climb, size_map hF, walk_map hF hstop]

/-- **Chains end where they did.** -/
theorem baseOf_map (name : String) : (reg.map F).baseOf name = reg.baseOf name :=
  climb_map hF (fun _ => rfl) name

end

/-- What is left of a type without its form keeps its chain. -/
theorem keepsChains_skeleton : KeepsChains TypeDef.skeleton where
  name _ := rfl
  supertype _ := rfl

/-- Chains end alike among types of the same names and supertypes. -/
theorem baseOf_congr {reg' : Registry} (h : reg'.map TypeDef.skeleton = reg.map TypeDef.skeleton)
    (name : String) : reg'.baseOf name = reg.baseOf name := by
  rw [← baseOf_map keepsChains_skeleton, h, baseOf_map keepsChains_skeleton]

/-! ### Elements and fields -/

section
variable (hF : reg.Keeps F)
include hF

/-- The nearest definition stays. -/
theorem nearest_map (reference : String) :
    (reg.map F).nearest reference = reg.nearest reference := by
  refine climb_map hF.toKeepsChains (fun t => ?_) reference
  rw [← hF.nearest, nearestAt, nearestAt]
  simp only [baseOf_map hF.toKeepsChains]

theorem nearestText_map (reference : String) :
    (reg.map F).nearestText reference = reg.nearestText reference :=
  climb_map hF.toKeepsChains (fun t => congrArg Except.ok (hF.nearestText t)) reference

/-- **References come to the schemas that they had.** -/
theorem element_map (format : IntegerFormat) (reference : String) :
    (reg.map F).element format reference = reg.element format reference := by
  simp only [element, baseOf_map hF.toKeepsChains, nearestText_map hF, nearest_map hF]

/-- What collections hold stays. -/
theorem elements_map (format : IntegerFormat) (reference : Option String) :
    (reg.map F).elements format reference = reg.elements format reference := by
  simp only [elements, element_map hF]

/-- **A field has the content that it had**, if it is still of its type and says the same of its
items. -/
theorem content_map {f f' : Field} (htype : f'.type = f.type)
    (hitems : nonEmpty? f'.items = nonEmpty? f.items) :
    (reg.map F).content f' = reg.content f := by
  rw [content, content, find_map hF.toKeepsChains, htype, hitems]
  cases reg.find f.type with
  | error e => rfl
  | ok m =>
      have hbase : (reg.map F).baseOfReferent (m.map F) = reg.baseOfReferent m := by
        cases m with
        | builtIn b => rfl
        | declared t =>
            simp only [Referent.map, baseOfReferent, hF.name, baseOf_map hF.toKeepsChains]
      have hheld : (m.map F).itemsAs? = m.itemsAs? := by
        cases m with
        | builtIn b => rfl
        | declared t => exact funext (hF.items t)
      simp only [Except.map, hbase, hheld, elements_map hF, nearestText_map hF]

/-- A type that is no struct has the body that it had among the types before. -/
theorem body_map {t : TypeDef} (hform : ∀ fields, t.form ≠ .struct fields) :
    (reg.map F).body t = reg.body t := by
  rw [body, body]
  cases h : t.form with
  | struct fields => exact absurd h (hform fields)
  | array | map | bare => simp only [baseOf_map hF.toKeepsChains, elements_map hF]
  | enum | union | text => rfl

end

/-- **Properties change as those of the single fields do.** -/
theorem properties_map {reg' : Registry} {G : Field → Field} {H : Property → Property}
    {fields : List Field} (hname : ∀ f, (G f).name = f.name)
    (h : ∀ f ∈ fields, reg'.property (G f) = (reg.property f).map H) :
    reg'.properties (fields.map G) =
      (reg.properties fields).map fun ps => ps.map fun e => (e.1, H e.2) := by
  rw [properties_eq, properties_eq, collect_map h]
  cases collect reg.property fields with
  | error e => rfl
  | ok rs =>
      have hpairs : (rs.map fun r => (G r.1, H r.2)).map (fun r => (r.1.name, r.2)) =
          (rs.map fun r => (r.1.name, r.2)).map fun p => (p.1, H p.2) := by
        simp [hname, Function.comp_def]
      simp only [Except.map, hpairs, Entries.ofList_map]

end Registry

/-! ### Documents -/

namespace Document

/-- **A document changes as the definitions of the single types do**, if there is the same to say
of them. -/
theorem ofSchema_map {s : Schema} {F : TypeDef → TypeDef} {G : Definition → Definition}
    (hname : ∀ t, (F t).name = t.name) (hdiagnostic : ∀ t, (F t).diagnostic? = t.diagnostic?)
    (h : ∀ t ∈ s.types, (s.map F).convert (F t) = (s.convert t).map (Option.map G)) :
    ofSchema (s.map F) =
      (ofSchema s).map fun d =>
        { d with definitions := d.definitions.map fun e => (e.1, G e.2) } := by
  rw [ofSchema_eq, ofSchema_eq, show (s.map F).types = s.types.map F from rfl, collect_map h]
  cases collect s.convert s.types with
  | error e => rfl
  | ok rs =>
      have hpairs : (rs.map fun r => (F r.1, r.2.map G)).filterMap
            (fun r => r.2.map fun d => (r.1.name, d)) =
          (rs.filterMap fun r => r.2.map fun d => (r.1.name, d)).map fun p => (p.1, G p.2) := by
        simp [List.filterMap_map, List.map_filterMap, hname, Function.comp_def]
      have hdiagnostics : (rs.map fun r => (F r.1, r.2.map G)).filterMap (·.1.diagnostic?) =
          rs.filterMap (·.1.diagnostic?) := by
        simp [List.filterMap_map, hdiagnostic]
      simp only [Except.map, ofResults, hpairs, hdiagnostics, Entries.ofList_map]

end Document
end InterfaceSchema
