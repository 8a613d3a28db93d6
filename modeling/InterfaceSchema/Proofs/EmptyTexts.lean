import Mathlib.Data.List.Forall2
import InterfaceSchema.Proofs.Revision

/-!
# Empty texts

An empty comment, empty items of a field and an empty pattern count as not given: a document is the
same without them (`ofSchema_pruned`), and so it is when some of them are taken out of the schema
(`TypeDef.Trimmed`).

One thing may become of that besides.  A type whose only mark of a form is an empty pattern has no
form without it.  With the pattern it produces nothing; without it, it produces nothing where its
supertype ends at a number or at `String` (`Registry.plain`), and elsewhere a definition or a
failure (`convert_eq_iff_of_losesForm`).
-/

namespace InterfaceSchema

/-! ### Without empty texts -/

def Field.pruned (f : Field) : Field :=
  { f with items := nonEmpty? f.items, comment := nonEmpty? f.comment }

def Constraints.pruned (c : Constraints) : Constraints := { c with pattern := nonEmpty? c.pattern }

/-- The form without empty texts; over a plain supertype a text without constraints is bare. -/
def Form.pruned (plain : Bool) : Form → Form
  | .struct fields => .struct (fields.map Field.pruned)
  | .text c => if !c.any && plain then .bare else .text c.pruned
  | form => form

def TypeDef.pruned (plain : String → Bool) (t : TypeDef) : TypeDef :=
  { t with comment := nonEmpty? t.comment, form := t.form.pruned (plain t.supertype) }

/-- The name comes down to a number or to `String`, so that a type over it which adds nothing is
written out where it is used. -/
def Registry.plain (reg : Registry) (name : String) : Bool :=
  match reg.baseOf name with
  | .ok base => base.isNumeric || base == .string
  | .error _ => false

def Schema.pruned (s : Schema) : Schema := s.map (TypeDef.pruned (Registry.ofSchema s).plain)

@[simp] theorem nonEmpty?_nonEmpty? (text : Option String) :
    nonEmpty? (nonEmpty? text) = nonEmpty? text := by
  simp [nonEmpty?, Option.filter_filter]

theorem Constraints.any_pruned (c : Constraints) : c.pruned.any = c.any := by
  simp [any, pruned]

/-- Empty texts are nothing to diagnostics. -/
theorem TypeDef.diagnostic?_pruned (plain : String → Bool) (t : TypeDef) :
    (t.pruned plain).diagnostic? = t.diagnostic? := by
  obtain ⟨_, _, _, form⟩ := t
  cases form with
  | text c =>
      simp only [pruned, Form.pruned]
      split <;> rfl
  | struct | enum | union | map | array | bare => rfl

namespace Registry
variable {reg : Registry}

/-- A name is plain if it comes down to a number or to a text. -/
theorem plain_eq_true_iff {name : String} :
    reg.plain name = true ↔
      ∃ base, reg.baseOf name = .ok base ∧ (base.isNumeric ∨ base = .string) := by
  rw [plain]
  cases reg.baseOf name <;> simp

/-- A bare type over a plain supertype is passed by. -/
theorem nearestAt_of_plain {t : TypeDef} (hform : t.form = .bare)
    (h : reg.plain t.supertype = true) (reference : String) :
    reg.nearestAt reference t = .ok none := by
  obtain ⟨base, hbase, hb⟩ := plain_eq_true_iff.1 h
  have hne : base ≠ .struct := by
    rintro rfl
    simp [BaseType.isNumeric] at hb
  simp [nearestAt, hform, hbase, hne, Except.map]

/-- **A bare type produces nothing exactly over a plain supertype.** -/
theorem body_eq_none_iff_of_bare {t : TypeDef} (hform : t.form = .bare) :
    reg.body t = .ok none ↔ reg.plain t.supertype = true := by
  rw [body, plain, hform]
  cases reg.baseOf t.supertype with
  | error e => simp
  | ok base => cases base <;> simp [BaseType.isNumeric]

/-- Pruning keeps names and supertypes, and all that searches of chains see of a type. -/
theorem keeps_pruned (reg : Registry) : reg.Keeps (TypeDef.pruned reg.plain) where
  name _ := rfl
  supertype _ := rfl
  nearest reference t := by
    obtain ⟨name, supertype, comment, form⟩ := t
    cases form with
    | text c =>
        cases hany : c.any with
        | true => simp [TypeDef.pruned, Form.pruned, nearestAt, c.any_pruned, hany]
        | false =>
            cases hplain : reg.plain supertype with
            | true =>
                rw [nearestAt_of_plain (by simp [TypeDef.pruned, Form.pruned, hany, hplain]) hplain]
                simp [nearestAt, hany]
            | false => simp [TypeDef.pruned, Form.pruned, nearestAt, c.any_pruned, hany, hplain]
    | struct | enum | union | map | array | bare => rfl
  nearestText t := by
    obtain ⟨name, supertype, comment, form⟩ := t
    cases form with
    | text c =>
        cases hany : c.any <;> cases hplain : reg.plain supertype <;>
          simp [TypeDef.pruned, Form.pruned, nearestTextAt, c.any_pruned, hany, hplain]
    | struct | enum | union | map | array | bare => rfl
  items t base := by
    obtain ⟨name, supertype, comment, form⟩ := t
    cases form with
    | text c =>
        cases h : !c.any && reg.plain supertype <;> cases base <;>
          simp [TypeDef.pruned, Form.pruned, TypeDef.itemsAs?, h]
    | struct | enum | union | map | array | bare => cases base <;> rfl

/-- Nor does it change a property. -/
theorem property_pruned (f : Field) :
    (reg.map (TypeDef.pruned reg.plain)).property f.pruned = reg.property f := by
  have hcontent : (reg.map (TypeDef.pruned reg.plain)).content f.pruned = reg.content f :=
    content_map reg.keeps_pruned rfl (nonEmpty?_nonEmpty? f.items)
  rw [property, property, hcontent]
  simp [Field.pruned]

/-- Nor the properties of a struct. -/
theorem properties_pruned (fields : List Field) :
    (reg.map (TypeDef.pruned reg.plain)).properties (fields.map Field.pruned) =
      reg.properties fields := by
  have hproperty : ∀ f ∈ fields, (reg.map (TypeDef.pruned reg.plain)).property f.pruned =
      (reg.property f).map id := fun f _ => by
    rw [property_pruned]
    cases reg.property f <;> rfl
  rw [properties_map (G := Field.pruned) (fun _ => rfl) hproperty]
  cases reg.properties fields <;> simp [Except.map]

theorem requiredNames_pruned (fields : List Field) :
    requiredNames (fields.map Field.pruned) = requiredNames fields := by
  simp [requiredNames, List.filter_map, Function.comp_def, Field.pruned]

/-- Nor the body of a definition. -/
theorem body_pruned (t : TypeDef) :
    (reg.map (TypeDef.pruned reg.plain)).body (t.pruned reg.plain) = reg.body t := by
  obtain ⟨name, supertype, comment, form⟩ := t
  cases form with
  | struct fields =>
      rw [body, body]
      simp only [TypeDef.pruned, Form.pruned, properties_pruned, requiredNames_pruned]
  | text c =>
      cases hany : c.any with
      | true =>
          have hpattern : nonEmpty? c.pruned.pattern = nonEmpty? c.pattern :=
            nonEmpty?_nonEmpty? c.pattern
          simp only [TypeDef.pruned, Form.pruned, body, hany, c.any_pruned, hpattern, Bool.not_true,
            Bool.false_and, Bool.false_eq_true, if_false]
          rfl
      | false =>
          cases hplain : reg.plain supertype with
          | true =>
              have hform : (TypeDef.pruned reg.plain ⟨name, supertype, comment, .text c⟩).form =
                  .bare := by
                simp [TypeDef.pruned, Form.pruned, hany, hplain]
              rw [body_map reg.keeps_pruned (by simp [hform]),
                (body_eq_none_iff_of_bare hform).2 hplain]
              simp [body, hany]
          | false => simp [TypeDef.pruned, Form.pruned, body, c.any_pruned, hany, hplain]
  | array | map | enum | union | bare =>
      exact body_map reg.keeps_pruned (by simp [TypeDef.pruned, Form.pruned])

/-- **A type has the definition that it has without empty texts.** -/
theorem define_pruned (t : TypeDef) :
    (reg.map (TypeDef.pruned reg.plain)).define (.declared (t.pruned reg.plain)) =
      reg.define (.declared t) := by
  rw [define_declared_eq, define_declared_eq, body_pruned]
  simp [TypeDef.pruned]

end Registry

/-- **Documents do not hang on empty texts.** -/
theorem Document.ofSchema_pruned (s : Schema) : ofSchema s.pruned = ofSchema s := by
  have hconvert : ∀ t ∈ s.types,
      (s.map (TypeDef.pruned (Registry.ofSchema s).plain)).convert
        (t.pruned (Registry.ofSchema s).plain) = (s.convert t).map (Option.map id) := fun t _ => by
    rw [Schema.convert_eq, Schema.convert_eq, Registry.ofSchema_map, Registry.define_pruned]
    cases (Registry.ofSchema s).define (.declared t) <;> simp [Except.map]
  rw [Schema.pruned, ofSchema_map (F := TypeDef.pruned _) (fun _ => rfl)
    (TypeDef.diagnostic?_pruned _) hconvert]
  cases ofSchema s <;> simp [Except.map]

/-! ### What is left of a schema -/

theorem map_eq_of_forall₂ {α β : Type} {f : α → β} {as as' : List α}
    (h : List.Forall₂ (fun a a' => f a' = f a) as as') : as'.map f = as.map f := by
  induction h with
  | nil => rfl
  | cons h _ ih => rw [List.map_cons, List.map_cons, h, ih]

/-- The type `t'` is `t` but for empty texts.  Of a text without constraints the form may be gone
with them. -/
structure TypeDef.Trimmed (t t' : TypeDef) : Prop where
  name : t'.name = t.name
  supertype : t'.supertype = t.supertype
  comment : nonEmpty? t'.comment = nonEmpty? t.comment
  form : t'.form.pruned false = t.form.pruned false ∨
    t'.form = .bare ∧ ∃ c, t.form = .text c ∧ c.any = false

/-- The type had a form, and has none any more. -/
def TypeDef.LosesForm (t t' : TypeDef) : Prop := t.form ≠ .bare ∧ t'.form = .bare

/-- It makes no difference that a form was pruned before as if its supertype were not plain. -/
theorem Form.pruned_pruned (plain : Bool) (form : Form) :
    (form.pruned false).pruned plain = form.pruned plain := by
  cases form with
  | text c => simp [pruned, c.any_pruned]; simp [Constraints.pruned]
  | struct fields => simp [pruned, Field.pruned, Function.comp_def]
  | enum | union | map | array | bare => rfl

namespace TypeDef.Trimmed
variable {t t' : TypeDef}

theorem pruned_eq (h : t.Trimmed t') {plain : String → Bool}
    (hplain : t.LosesForm t' → plain t.supertype = true) : t'.pruned plain = t.pruned plain := by
  have hform : t'.form.pruned (plain t.supertype) = t.form.pruned (plain t.supertype) := by
    rcases h.form with hform | ⟨hbare, c, hc, hany⟩
    · rw [← Form.pruned_pruned, hform, Form.pruned_pruned]
    · rw [hbare, hc, hplain ⟨by simp [hc], hbare⟩]
      simp [Form.pruned, hany]
  simp only [TypeDef.pruned, h.name, h.supertype, h.comment, hform]

/-- What is left of a type stands in chains as the type does. -/
theorem skeleton_eq (h : t.Trimmed t') : t'.skeleton = t.skeleton := by
  simp only [skeleton, h.name, h.supertype]

/-- What loses its form was a text without constraints. -/
theorem text_of_losesForm (h : t.Trimmed t') (hlost : t.LosesForm t') :
    ∃ c, t.form = .text c ∧ c.any = false := by
  obtain ⟨hne, hbare⟩ := hlost
  rcases h.form with hform | ⟨-, hc⟩
  · rw [hbare] at hform
    cases hf : t.form with
    | bare => exact absurd hf hne
    | struct | enum | union | map | array | text => simp [Form.pruned, hf] at hform
  · exact hc

end TypeDef.Trimmed

namespace Schema
variable {s s' : Schema}

/-- What is left of a schema reaches the same built-in types. -/
theorem baseOf_of_trimmed (h : List.Forall₂ TypeDef.Trimmed s.types s'.types) (name : String) :
    (Registry.ofSchema s').baseOf name = (Registry.ofSchema s).baseOf name := by
  have hskeleton := map_eq_of_forall₂ (h.imp fun _ _ ht => ht.skeleton_eq)
  exact Registry.baseOf_congr (congrArg Registry.mk hskeleton) name

/-- So the same names are plain. -/
theorem plain_of_trimmed (h : List.Forall₂ TypeDef.Trimmed s.types s'.types) :
    (Registry.ofSchema s').plain = (Registry.ofSchema s).plain := by
  funext name
  rw [Registry.plain, Registry.plain, baseOf_of_trimmed h]

/-- **A schema has the document that it had**, if forms are lost over plain supertypes only. -/
theorem ofSchema_of_trimmed (h : List.Forall₂ TypeDef.Trimmed s.types s'.types)
    (hplain : ∀ p ∈ s.types.zip s'.types, p.1.LosesForm p.2 →
      (Registry.ofSchema s).plain p.1.supertype = true) :
    Document.ofSchema s' = Document.ofSchema s := by
  have htypes : s'.pruned.types = s.pruned.types := by
    simp only [pruned, plain_of_trimmed h]
    refine map_eq_of_forall₂ (List.forall₂_iff_zip.2 ⟨h.length_eq, fun hp => ?_⟩)
    exact (List.forall₂_zip h hp).pruned_eq (hplain _ hp)
  rw [← Document.ofSchema_pruned s', ← Document.ofSchema_pruned s, Document.ofSchema,
    Document.ofSchema, Registry.ofSchema, Registry.ofSchema, htypes]

/-- **A type that loses its form converts as it did exactly over a plain supertype.** -/
theorem convert_eq_iff_of_losesForm (h : List.Forall₂ TypeDef.Trimmed s.types s'.types)
    {t t' : TypeDef} (ht : t.Trimmed t') (hlost : t.LosesForm t') :
    s'.convert t' = s.convert t ↔ (Registry.ofSchema s).plain t.supertype = true := by
  obtain ⟨c, hc, hany⟩ := ht.text_of_losesForm hlost
  have hbody : (Registry.ofSchema s).body t = .ok none := by simp [Registry.body, hc, hany]
  rw [← ht.supertype, ← plain_of_trimmed h, ← Registry.body_eq_none_iff_of_bare hlost.2,
    convert_eq, convert_eq, Registry.define_declared_eq, Registry.define_declared_eq, hbody]
  rcases (Registry.ofSchema s').body t' with e | _ | body <;> simp [Except.map]

end Schema

end InterfaceSchema
