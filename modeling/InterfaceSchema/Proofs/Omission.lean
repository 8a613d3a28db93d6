import Mathlib.Data.List.Forall2
import InterfaceSchema.Proofs.Shapes

/-!
# Members left out

Some members of records say nothing when their text is empty: the keys of such members are *idle*,
and may be left out.  `Shape.Omits` leaves some of them out of a value, at any depth where the
shape has records.  A key that stands a second time is not left out, since that would be a fault.

The shape then reads both values, or finds the same flaw in both (`Shape.ofTree_of_omits`), and
what it reads is the same but for empty texts that are not there any more (`Shape.Lacks`).
-/

namespace InterfaceSchema.Json

/-- Both fail alike, or come to what is so related. -/
inductive Together {ε α β : Type} (R : α → β → Prop) (x : Except ε α) (y : Except ε β) : Prop where
  | ok (a : α) (b : β) (hx : x = .ok a) (hy : y = .ok b) (h : R a b)
  | error (e : ε) (hx : x = .error e) (hy : y = .error e)

namespace Together
variable {ε ε' α α' β β' : Type} {R : α → β → Prop} {S : α' → β' → Prop} {x : Except ε α}
  {y : Except ε β}

/-- Results that go together do so after they have been changed alike. -/
theorem map {f : α → α'} {g : β → β'} (hS : ∀ ⦃a b⦄, R a b → S (f a) (g b))
    (h : Together R x y) : Together S (x.map f) (y.map g) := by
  cases h with
  | ok a b hx hy h => exact .ok (f a) (g b) (by rw [hx]; rfl) (by rw [hy]; rfl) (hS h)
  | error e hx hy => exact .error e (by rw [hx]; rfl) (by rw [hy]; rfl)

theorem mapError (f : ε → ε') (h : Together R x y) :
    Together R (x.mapError f) (y.mapError f) := by
  cases h with
  | ok a b hx hy h => exact .ok a b (by rw [hx]; rfl) (by rw [hy]; rfl) h
  | error e hx hy => exact .error (f e) (by rw [hx]; rfl) (by rw [hy]; rfl)

/-- Equal results go together. -/
theorem of_eq {R : α → α → Prop} (hR : ∀ a, R a a) {x y : Except ε α} (h : x = y) :
    Together R x y := by
  subst h
  cases x with
  | ok a => exact .ok a a rfl rfl (hR a)
  | error e => exact .error e rfl rfl

/-- What fails with an error fails together with one that `f` takes for the same. -/
theorem error_of_mapError {f : ε → ε'} (h : Together R (x.mapError f) (y.mapError f)) {e : ε}
    (hx : x = .error e) : ∃ e', y = .error e' ∧ f e' = f e := by
  subst hx
  cases h with
  | ok a b hx _ _ => cases hx
  | error e' hx hy =>
      cases y with
      | ok b => cases hy
      | error e'' =>
          have hsame : f e'' = f e := (Except.error.inj hy).trans (Except.error.inj hx).symm
          exact ⟨e'', rfl, hsame⟩

/-- What is read on one side is read on the other, however errors are told. -/
theorem ok_of_mapError {f : ε → ε'} (h : Together R (x.mapError f) (y.mapError f)) {a : α}
    (hx : x = .ok a) : ∃ b, y = .ok b ∧ R a b := by
  subst hx
  cases h with
  | error e hx _ => cases hx
  | ok a' b hx hy hab =>
      cases hx
      cases y with
      | error e => cases hy
      | ok b' =>
          cases hy
          exact ⟨b, rfl, hab⟩

end Together

/-! ### Values -/

/-- A text. -/
def Tree.text (t : String) : Tree := .scalar (.ok (.text t))

/-- The empty text. -/
def Tree.emptyText : Tree := .text ""

/-- The members `es'` are `es` without some empty texts, and with values that `R` relates.  A key
under which an empty text is left out stands nowhere else in the object; `seen` are the keys before
`es`. -/
inductive Tree.MembersOmit (idle : String → Prop) (R : String → Tree → Tree → Prop) :
    List (Except Flaw String) → List (Except Flaw String × Tree) →
      List (Except Flaw String × Tree) → Prop where
  | nil {seen : List (Except Flaw String)} : MembersOmit idle R seen [] []
  | keep {seen : List (Except Flaw String)} {es es' : List (Except Flaw String × Tree)}
      {key : Except Flaw String} {v v' : Tree} (hv : v' = v ∨ ∃ k, key = .ok k ∧ R k v v')
      (h : MembersOmit idle R (key :: seen) es es') :
      MembersOmit idle R seen ((key, v) :: es) ((key, v') :: es')
  | drop {seen : List (Except Flaw String)} {es es' : List (Except Flaw String × Tree)}
      {key : String} (hidle : idle key) (hseen : .ok key ∉ seen)
      (hlater : .ok key ∉ es.map (·.1)) (h : MembersOmit idle R (.ok key :: seen) es es') :
      MembersOmit idle R seen ((.ok key, .emptyText) :: es) es'

section
variable (idle : String → String → Prop)

mutual

/-- The value `v'` is `v` without some empty texts under idle keys of records. -/
def Shape.Omits : Shape → Tree → Tree → Prop
  | .nullable s, v, v' => s.Omits v v'
  | .list s, v, v' =>
    v' = v ∨ ∃ vs vs', v = .list vs ∧ v' = .list vs' ∧ List.Forall₂ s.Omits vs vs'
  | .record title ms, v, v' =>
    v' = v ∨
      (∃ es es', v = .object es ∧ v' = .object es' ∧
        Tree.MembersOmit (idle title) ms.OmitsAt [] es es') ∨
      ∃ vs vs', v = .list vs ∧ v' = .list vs' ∧ ms.OmitsItems vs vs'
  | .text, v, v' | .flag, v, v' | .integer, v, v' => v' = v

/-- The value `v'` is so for `v` as the member `key` of a record. -/
def Members.OmitsAt : Members → String → Tree → Tree → Prop
  | .empty, _, v, v' => v' = v
  | .cons k _ s ms, key, v, v' => if key = k then s.Omits v v' else ms.OmitsAt key v v'

/-- The items `vs'` are so for `vs` as a record that is written as a list. -/
def Members.OmitsItems : Members → List Tree → List Tree → Prop
  | .cons _ _ s ms, v :: vs, v' :: vs' => s.Omits v v' ∧ ms.OmitsItems vs vs'
  | .cons _ _ _ _, [], vs' => vs' = []
  | .cons _ _ _ _, _ :: _, [] => False
  | .empty, vs, vs' => vs' = vs

end

/-! ### What is read -/

/-- What is read is the empty text, where a text may be left out. -/
def Shape.IsEmptyText : (s : Shape) → s.Val → Prop
  | .nullable .text, a => a = some ""
  | _, _ => False

mutual

/-- What is read is the same, but for members of idle keys that were empty and are left out. -/
def Shape.Lacks : (s : Shape) → s.Val → s.Val → Prop
  | .text, a, a' | .flag, a, a' | .integer, a, a' => a' = a
  | .nullable s, a, a' => Option.Rel s.Lacks a a'
  | .list s, as, as' => List.Forall₂ s.Lacks as as'
  | .record title ms, r, r' => ms.Lacks title r r'

def Members.Lacks (title : String) : (ms : Members) → ms.Val → ms.Val → Prop
  | .empty, (), () => True
  | .cons k _ s ms, (a, r), (a', r') =>
    (s.Lacks a a' ∨ idle title k ∧ s.IsEmptyText a ∧ a' = s.blank) ∧ ms.Lacks title r r'

end

mutual

/-- Idle keys are those of texts that may be left out. -/
def Shape.Admits : Shape → Prop
  | .text | .flag | .integer => True
  | .nullable s | .list s => s.Admits
  | .record title ms => ms.Admits title

def Members.Admits (title : String) : Members → Prop
  | .empty => True
  | .cons k p s ms =>
    (idle title k → s = .nullable .text ∧ p ≠ .required) ∧ s.Admits ∧ ms.Admits title

end

mutual

/-- No key of the shape is idle. -/
def Shape.NoneIdle : Shape → Prop
  | .text | .flag | .integer => True
  | .nullable s | .list s => s.NoneIdle
  | .record title ms => ms.NoneIdle title

def Members.NoneIdle (title : String) : Members → Prop
  | .empty => True
  | .cons k _ s ms => ¬ idle title k ∧ s.NoneIdle ∧ ms.NoneIdle title

end

/-- What is read of the member `k` of a record is so, or is empty and left out. -/
def Shape.LacksAt (title k : String) (s : Shape) (a a' : s.Val) : Prop :=
  s.Lacks idle a a' ∨ idle title k ∧ s.IsEmptyText a ∧ a' = s.blank

/-- Where the reading of an object stands with one slot, after the keys `seen` and before the keys
`later`: a text that was left out is there in the one object and not in the other. -/
inductive SlotLags (title k : String) (s : Shape) (later : List (Except Flaw String)) :
    Option s.Val → Option s.Val → Prop where
  | unmet : SlotLags title k s later none none
  | met {a a' : s.Val} (h : s.Lacks idle a a') : SlotLags title k s later (some a) (some a')
  | dropped {a : s.Val} (hidle : idle title k) (hempty : s.IsEmptyText a)
      (hlater : .ok k ∉ later) : SlotLags title k s later (some a) none

/-- Where it stands with all slots. -/
def Members.Lag (title : String) (seen later : List (Except Flaw String)) :
    (ms : Members) → ms.Slots → ms.Slots → Prop
  | .empty, (), () => True
  | .cons k _ s ms, (slot, slots), (slot', slots') =>
    SlotLags idle title k s later slot slot' ∧ (.ok k ∉ seen → slot = none) ∧
      ms.Lag title seen later slots slots'

end

variable {idle : String → String → Prop}

/-! ### Laws -/

mutual

/-- Every value is itself with nothing left out. -/
theorem Shape.Lacks.refl : ∀ (s : Shape) (a : s.Val), s.Lacks idle a a
  | .text, a | .flag, a | .integer, a => by rw [Shape.Lacks]
  | .nullable s, a => by
      rw [Shape.Lacks]
      cases a with
      | none => exact .none
      | some a => exact .some (Shape.Lacks.refl s a)
  | .list s, as => by
      rw [Shape.Lacks]
      exact List.forall₂_same.2 fun a _ => Shape.Lacks.refl s a
  | .record title ms, r => by
      rw [Shape.Lacks]
      exact Members.Lacks.refl ms r

theorem Members.Lacks.refl {title : String} : ∀ (ms : Members) (r : ms.Val),
    ms.Lacks idle title r r
  | .empty, () => trivial
  | .cons _ _ s ms, (a, r) => ⟨.inl (Shape.Lacks.refl s a), Members.Lacks.refl ms r⟩

end

mutual

/-- Where no key is idle there is nothing to leave out. -/
theorem Shape.Lacks.eq : ∀ {s : Shape}, s.NoneIdle idle → ∀ {a a' : s.Val},
    s.Lacks idle a a' → a' = a
  | .text, _, _, _, h | .flag, _, _, _, h | .integer, _, _, _, h => by
      rw [Shape.Lacks] at h
      exact h
  | .nullable s, hs, a, a', h => by
      rw [Shape.Lacks] at h
      cases h with
      | none => rfl
      | some h => exact congrArg some (Shape.Lacks.eq (s := s) hs h)
  | .list s, hs, as, as', h => by
      rw [Shape.Lacks] at h
      induction h with
      | nil => rfl
      | cons h _ ih => rw [Shape.Lacks.eq (s := s) hs h, ih]
  | .record title ms, hms, r, r', h => by
      rw [Shape.Lacks] at h
      exact Members.Lacks.eq hms h

/-- So it is with records. -/
theorem Members.Lacks.eq {title : String} : ∀ {ms : Members}, ms.NoneIdle idle title →
    ∀ {r r' : ms.Val}, ms.Lacks idle title r r' → r' = r
  | .empty, _, (), (), _ => rfl
  | .cons _ _ s ms, ⟨hk, hs, hms⟩, (a, r), (a', r'), ⟨ha, hr⟩ => by
      rcases ha with ha | ⟨hidle, -⟩
      · rw [Shape.Lacks.eq hs ha, Members.Lacks.eq hms hr]
      · exact absurd hidle hk

end

/-- What stands under a key that is not idle is left as it is. -/
theorem Shape.LacksAt.eq {title k : String} {s : Shape} (hs : s.NoneIdle idle)
    (hk : ¬ idle title k) {a a' : s.Val} (h : s.LacksAt idle title k a a') : a' = a := by
  rcases h with h | ⟨hidle, -⟩
  · exact Shape.Lacks.eq hs h
  · exact absurd hidle hk

/-- A text is what it was, or was empty and is left out. -/
theorem Shape.LacksAt.text {title k : String} {a a' : Option String}
    (h : (Shape.nullable .text).LacksAt idle title k a a') : a' = a ∨ a = some "" ∧ a' = none := by
  rcases h with h | ⟨-, hempty, hblank⟩
  · exact .inl (Shape.Lacks.eq (s := .nullable .text) trivial h)
  · exact .inr ⟨hempty, hblank⟩

/-- Nothing is left out of a scalar. -/
theorem Shape.Omits.eq_or_bracketed : ∀ {s : Shape} {v v' : Tree}, s.Omits idle v v' →
    v' = v ∨ (∀ r, v ≠ .scalar r) ∧ ∀ r, v' ≠ .scalar r
  | .text, _, _, h | .flag, _, _, h | .integer, _, _, h => by
      rw [Shape.Omits] at h
      exact .inl h
  | .nullable s, _, _, h => by
      rw [Shape.Omits] at h
      exact h.eq_or_bracketed
  | .list s, _, _, h => by
      rw [Shape.Omits] at h
      rcases h with h | ⟨vs, vs', rfl, rfl, -⟩
      · exact .inl h
      · exact .inr ⟨by simp, by simp⟩
  | .record title ms, _, _, h => by
      rw [Shape.Omits] at h
      rcases h with h | ⟨es, es', rfl, rfl, -⟩ | ⟨vs, vs', rfl, rfl, -⟩
      · exact .inl h
      · exact .inr ⟨by simp, by simp⟩
      · exact .inr ⟨by simp, by simp⟩

namespace Members

/-- Before the first member nothing lags. -/
theorem lag_noSlots {title : String} {later : List (Except Flaw String)} : ∀ ms : Members,
    ms.Lag idle title [] later ms.noSlots ms.noSlots
  | .empty => trivial
  | .cons _ _ _ ms => ⟨.unmet, fun _ => rfl, lag_noSlots ms⟩

/-- Reading on past a key keeps the other slots where they are. -/
theorem Lag.mono {title : String} {seen later : List (Except Flaw String)}
    {key : Except Flaw String} : ∀ {ms : Members} {σ σ' : ms.Slots},
    ms.Lag idle title seen (key :: later) σ σ' → ms.Lag idle title (key :: seen) later σ σ'
  | .empty, (), (), _ => trivial
  | .cons k _ s ms, (slot, slots), (slot', slots'), ⟨hslot, hseen, hslots⟩ => by
      refine ⟨?_, fun hk => hseen fun h => hk (List.mem_cons_of_mem key h), hslots.mono⟩
      cases hslot with
      | unmet => exact .unmet
      | met h => exact .met h
      | dropped hidle hempty hlater =>
          exact .dropped hidle hempty fun h => hlater (List.mem_cons_of_mem key h)

/-- A text that is left out has its slot to itself. -/
theorem put_emptyText {title key : String} {seen later : List (Except Flaw String)}
    (hidle : idle title key) (hseen : .ok key ∉ seen) (hlater : .ok key ∉ later) :
    ∀ {ms : Members}, ms.Admits idle title → ∀ {σ σ' : ms.Slots},
    ms.Lag idle title seen (.ok key :: later) σ σ' →
      ∃ σ₁, ms.put key .emptyText σ = .ok σ₁ ∧ ms.Lag idle title (.ok key :: seen) later σ₁ σ'
  | .empty, _, (), (), _ => ⟨(), rfl, trivial⟩
  | .cons k p s ms, ⟨hk, _, hms⟩, (slot, slots), (slot', slots'), h => by
      obtain ⟨hslot, hslotSeen, hslots⟩ := h.mono
      by_cases hkey : key = k
      · subst hkey
        obtain ⟨rfl, -⟩ := hk hidle
        obtain rfl : slot = none := h.2.1 hseen
        cases hslot with
        | unmet =>
            refine ⟨(some (some ""), slots), put_unmet, ?_⟩
            exact ⟨.dropped hidle rfl hlater, fun h => absurd List.mem_cons_self h, hslots⟩
      · obtain ⟨slots₁, hput, hlag⟩ := put_emptyText hidle hseen hlater hms h.2.2
        exact ⟨(slot, slots₁), by rw [put_of_ne hkey, hput]; rfl, hslot, hslotSeen, hlag⟩

/-- What has come together makes the same record, but for what was left out. -/
theorem ofSlots_of_lag {title : String} {seen : List (Except Flaw String)} : ∀ {ms : Members},
    ms.Admits idle title → ∀ {σ σ' : ms.Slots}, ms.Lag idle title seen [] σ σ' →
      Together (ms.Lacks idle title) (ms.ofSlots σ) (ms.ofSlots σ')
  | .empty, _, (), (), _ => .ok () () rfl rfl trivial
  | .cons k p s ms, ⟨hk, _, hms⟩, (slot, slots), (slot', slots'), ⟨hslot, _, hslots⟩ => by
      have hlater := ofSlots_of_lag hms hslots
      cases hslot with
      | unmet =>
          cases p with
          | required => exact .error _ rfl rfl
          | omissible | defaulted => exact hlater.map fun _ _ h => ⟨.inl (Shape.Lacks.refl s _), h⟩
      | met ha => exact hlater.map fun _ _ h => ⟨.inl ha, h⟩
      | dropped hidle hempty _ =>
          obtain ⟨-, hp⟩ := hk hidle
          cases p with
          | required => exact absurd rfl hp
          | omissible | defaulted => exact hlater.map fun _ _ h => ⟨.inr ⟨hidle, hempty, rfl⟩, h⟩

end Members

/-! ### Reading what is left -/

namespace Tree
variable {α β : Type}

/-- Items that go together one by one do so as a list. -/
theorem items_of_omits {R : Tree → Tree → Prop} {S : α → α → Prop} {f : Tree → Except Flaw α}
    (hf : ∀ ⦃v v'⦄, R v v' → Together S (f v) (f v')) {vs vs' : List Tree}
    (h : List.Forall₂ R vs vs') (i : Nat) :
    Together (List.Forall₂ S) (items f i vs) (items f i vs') := by
  induction h generalizing i with
  | nil => exact .ok [] [] rfl rfl .nil
  | @cons v v' vs vs' hv _ ih =>
      rw [items, items]
      cases hf hv with
      | error flaw hx hy => exact .error (flaw.within (.item i)) (by rw [hx]) (by rw [hy])
      | ok a a' hx hy ha =>
          simp only [hx, hy]
          exact (ih (i + 1)).map fun _ _ has => .cons ha has

/-- What stands in brackets is not null. -/
theorem nullable_of_bracketed {f : Tree → Except Flaw α} {v : Tree} (h : ∀ r, v ≠ .scalar r) :
    nullable f v = (f v).map some := by
  cases v with
  | scalar r => exact absurd rfl (h r)
  | list vs | object es => rfl

/-- What may be null goes together if it does where it is not. -/
theorem nullable_of_omits {s : Shape} {S : α → α → Prop} {f : Tree → Except Flaw α} {v v' : Tree}
    (hS : ∀ a, S a a) (h : s.Omits idle v v') (hf : Together S (f v) (f v')) :
    Together (Option.Rel S) (nullable f v) (nullable f v') := by
  rcases h.eq_or_bracketed with rfl | ⟨hv, hv'⟩
  · refine .of_eq (fun o => ?_) rfl
    cases o with
    | none => exact .none
    | some a => exact .some (hS a)
  · rw [nullable_of_bracketed hv, nullable_of_bracketed hv']
    exact hf.map fun _ _ h => .some h

/-- **Objects are read together**, from where both readings stand to the end. -/
theorem members_of_omit {title : String} {ms : Members} (hms : ms.Admits idle title)
    (hput : ∀ ⦃key v v' seen later⦄ ⦃σ σ' : ms.Slots⦄, ms.OmitsAt idle key v v' →
      ms.Lag idle title seen (.ok key :: later) σ σ' →
      Together (ms.Lag idle title (.ok key :: seen) later) (ms.put key v σ) (ms.put key v' σ'))
    (hrefl : ∀ key v, ms.OmitsAt idle key v v)
    {seen : List (Except Flaw String)} {es es' : List (Except Flaw String × Tree)}
    (h : MembersOmit (idle title) (ms.OmitsAt idle) seen es es') {σ σ' : ms.Slots}
    (hlag : ms.Lag idle title seen (es.map (·.1)) σ σ') :
    Together (fun σ σ' => ∃ seen, ms.Lag idle title seen [] σ σ') (members ms.put σ es)
      (members ms.put σ' es') := by
  induction h generalizing σ σ' with
  | nil => exact .ok σ σ' rfl rfl ⟨_, hlag⟩
  | @keep seen es es' key v v' hv h ih =>
      cases key with
      | error flaw => exact .error _ rfl rfl
      | ok key =>
          have hv' : ms.OmitsAt idle key v v' := by
            rcases hv with rfl | ⟨k, hk, hv⟩
            · exact hrefl key v'
            · exact Except.ok.inj hk ▸ hv
          rw [members, members]
          cases hput hv' hlag with
          | error flaw hx hy => exact .error flaw (by rw [hx]) (by rw [hy])
          | ok σ₁ σ₁' hx hy hlag₁ =>
              simp only [hx, hy]
              exact ih hlag₁
  | @drop seen es es' key hidle hseen hlater h ih =>
      obtain ⟨σ₁, hσ₁, hlag₁⟩ := Members.put_emptyText hidle hseen hlater hms hlag
      rw [members, hσ₁]
      exact ih hlag₁

end Tree

mutual

/-- Nothing need be left out. -/
theorem Shape.Omits.refl : ∀ (s : Shape) (v : Tree), s.Omits idle v v
  | .text, v | .flag, v | .integer, v => by rw [Shape.Omits]
  | .nullable s, v => by
      rw [Shape.Omits]
      exact Shape.Omits.refl s v
  | .list s, v => by
      rw [Shape.Omits]
      exact .inl rfl
  | .record title ms, v => by
      rw [Shape.Omits]
      exact .inl rfl

theorem Members.OmitsAt.refl : ∀ (ms : Members) (key : String) (v : Tree), ms.OmitsAt idle key v v
  | .empty, key, v => by rw [Members.OmitsAt]
  | .cons k p s ms, key, v => by
      rw [Members.OmitsAt]
      split
      · exact Shape.Omits.refl s v
      · exact Members.OmitsAt.refl ms key v

end

mutual

/-- **A shape reads a value together with what is left of it** when empty texts under idle keys are
left out. -/
theorem Shape.ofTree_of_omits : ∀ (s : Shape), s.Admits idle → ∀ ⦃v v' : Tree⦄,
    s.Omits idle v v' → Together (s.Lacks idle) (s.ofTree v) (s.ofTree v')
  | .text, _, v, v', h | .flag, _, v, v', h | .integer, _, v, v', h => by
      rw [Shape.Omits] at h
      subst h
      exact .of_eq (Shape.Lacks.refl _) rfl
  | .nullable s, hs, v, v', h => by
      rw [Shape.Omits] at h
      simp only [Shape.ofTree]
      exact Tree.nullable_of_omits (Shape.Lacks.refl s) h (s.ofTree_of_omits hs h)
  | .list s, hs, v, v', h => by
      rw [Shape.Omits] at h
      rcases h with rfl | ⟨vs, vs', rfl, rfl, hvs⟩
      · exact .of_eq (Shape.Lacks.refl _) rfl
      · exact Tree.items_of_omits (s.ofTree_of_omits hs) hvs 0
  | .record title ms, hms, v, v', h => by
      rw [Shape.Omits] at h
      rcases h with rfl | ⟨es, es', rfl, rfl, hes⟩ | ⟨vs, vs', rfl, rfl, hvs⟩
      · exact .of_eq (Shape.Lacks.refl _) rfl
      · simp only [Shape.ofTree, Tree.record, Tree.named]
        cases Tree.members_of_omit hms (Members.put_of_omits ms hms) (Members.OmitsAt.refl ms) hes
            (Members.lag_noSlots ms) with
        | error flaw hx hy => exact .error flaw (by rw [hx]) (by rw [hy])
        | ok σ σ' hx hy hlag =>
            obtain ⟨seen, hlag⟩ := hlag
            simp only [hx, hy]
            exact (Members.ofSlots_of_lag hms hlag).mapError _
      · exact ms.ofItems_of_omits hms title ms.size 0 hvs

/-- Values put under one key: with both slots free, with both taken, or past both. -/
theorem Members.put_of_omits {title : String} : ∀ (ms : Members), ms.Admits idle title →
    ∀ ⦃key : String⦄ ⦃v v' : Tree⦄ ⦃seen later : List (Except Flaw String)⦄ ⦃σ σ' : ms.Slots⦄,
    ms.OmitsAt idle key v v' → ms.Lag idle title seen (.ok key :: later) σ σ' →
      Together (ms.Lag idle title (.ok key :: seen) later) (ms.put key v σ) (ms.put key v' σ')
  | .empty, _, key, v, v', seen, later, (), (), _, _ => .ok () () rfl rfl trivial
  | .cons k p s ms, ⟨_, hs, hms⟩, key, v, v', seen, later, (slot, slots), (slot', slots'), hv,
    h => by
      obtain ⟨hslot, hslotSeen, hslots⟩ := h.mono
      rw [Members.OmitsAt] at hv
      split at hv
      · next hkey =>
          subst hkey
          cases h.1 with
          | unmet =>
              rw [Members.put_unmet, Members.put_unmet]
              refine ((s.ofTree_of_omits hs hv).mapError _).map fun a a' ha => ?_
              exact ⟨.met ha, fun h => absurd List.mem_cons_self h, hslots⟩
          | met ha =>
              rw [Members.put_met, Members.put_met]
              exact .error _ rfl rfl
          | dropped _ _ hlater => exact absurd List.mem_cons_self hlater
      · next hkey =>
          rw [Members.put_of_ne hkey, Members.put_of_ne hkey]
          exact (ms.put_of_omits hms hv h.2.2).map fun _ _ hlag => ⟨hslot, hslotSeen, hlag⟩

/-- A record that stands as a list goes together with what is left of it. -/
theorem Members.ofItems_of_omits : ∀ (ms : Members) {title : String}, ms.Admits idle title →
    ∀ (title' : String) (size i : Nat) {vs vs' : List Tree}, ms.OmitsItems idle vs vs' →
      Together (ms.Lacks idle title) (ms.ofItems title' size i vs) (ms.ofItems title' size i vs')
  | .empty, _, _, title', size, i, vs, vs', h => by
      rw [Members.OmitsItems] at h
      exact .of_eq (Members.Lacks.refl .empty) (by rw [h])
  | .cons k p s ms, _, ⟨_, hs, hms⟩, title', size, i, [], vs', h => by
      rw [Members.OmitsItems] at h
      exact .of_eq (Members.Lacks.refl _) (by rw [h])
  | .cons k p s ms, _, hms, title', size, i, v :: vs, [], h => by
      rw [Members.OmitsItems] at h
      exact h.elim
  | .cons k p s ms, _, ⟨_, hs, hms⟩, title', size, i, v :: vs, v' :: vs', h => by
      rw [Members.OmitsItems] at h
      obtain ⟨hv, hvs⟩ := h
      simp only [Members.ofItems, Tree.listItem]
      cases s.ofTree_of_omits hs hv with
      | error flaw hx hy =>
          exact .error (flaw.within (.item i)) (by simp only [hx]; rfl) (by simp only [hy]; rfl)
      | ok a a' hx hy ha =>
          simp only [hx, hy]
          exact (ms.ofItems_of_omits hms title' size (i + 1) hvs).map fun _ _ hr => ⟨.inl ha, hr⟩

end

end InterfaceSchema.Json
