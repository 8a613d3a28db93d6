import Mathlib.Data.List.Perm.Subperm
import Mathlib.Logic.Function.Iterate
import InterfaceSchema.Registry
import InterfaceSchema.Proofs.Entries

/-!
# Chains of supertypes

The registry walks up from a name for a bounded number of lookups.  Here the walk has no bound:
from a name it goes on to the supertype of what is declared under it, and ends at a built-in type
or at a name that means nothing (`Ends`), or it never ends (`Endless`).

A walk that ends passes no name twice: it would go on from there as it did before, and come by
again and again.  So it passes no more types than are declared, and the bounded walk sees its end.

* `Ends.nodup`, `Ends.length_le`: a walk that ends is no longer than the list of declared types.
* `ends_or_endless`: there is no third way.
* `climb_of_ends`: the registry's walk stops at the first type on the way that there is something
  for.
* `baseOf_eq_ok_iff`, `baseOf_eq_error_iff`: without such a type it comes to what the unbounded
  walk does, and its error tells the first name that means nothing, or that there is no end.
* `baseOf_decided`: so the registry tells the three ways of the unbounded walk apart, and from a
  declared type it comes to what it comes to from the supertype.
-/

namespace InterfaceSchema
namespace Registry
variable {reg : Registry}

/-! ### What a name means -/

/-- Under a name stands the last type of that name. -/
theorem declared?_eq_some_iff {name : String} {t : TypeDef} :
    reg.declared? name = some t ↔
      t.name = name ∧ ∃ before after, reg.types = before ++ t :: after ∧
        ∀ u ∈ after, u.name ≠ name := by
  simp [declared?, find?_reverse_eq_some_iff]

theorem declared?_eq_none_iff {name : String} :
    reg.declared? name = none ↔ ∀ t ∈ reg.types, t.name ≠ name := by
  simp [declared?]

theorem mem_of_declared? {name : String} {t : TypeDef} (h : reg.declared? name = some t) :
    t ∈ reg.types := by
  obtain ⟨-, before, after, heq, -⟩ := declared?_eq_some_iff.1 h
  rw [heq]
  exact List.mem_append_right before List.mem_cons_self

/-- The names of built-in types mean these, whatever is declared. -/
theorem find_eq_builtIn_iff {name : String} {b : BaseType} :
    reg.find name = .ok (.builtIn b) ↔ b.name = name := by
  rw [← BaseType.ofName?_eq_some_iff, find]
  cases BaseType.ofName? name with
  | some b' => simp
  | none => cases reg.declared? name <;> simp

/-- Other names mean what is declared last under them. -/
theorem find_eq_declared_iff {name : String} {t : TypeDef} :
    reg.find name = .ok (.declared t) ↔
      BaseType.ofName? name = none ∧ reg.declared? name = some t := by
  rw [find]
  cases BaseType.ofName? name with
  | some b => simp
  | none => cases reg.declared? name <;> simp

/-- Names that mean neither are unknown. -/
theorem find_eq_error_iff {name : String} {e : LookupError} :
    reg.find name = .error e ↔
      e = .unknown name ∧ BaseType.ofName? name = none ∧ reg.declared? name = none := by
  rw [find]
  cases BaseType.ofName? name with
  | some b => simp
  | none => cases reg.declared? name <;> simp [eq_comm]

theorem name_of_find {name : String} {t : TypeDef} (h : reg.find name = .ok (.declared t)) :
    t.name = name :=
  (declared?_eq_some_iff.1 (find_eq_declared_iff.1 h).2).1

theorem mem_of_find {name : String} {t : TypeDef} (h : reg.find name = .ok (.declared t)) :
    t ∈ reg.types :=
  mem_of_declared? (find_eq_declared_iff.1 h).2

/-! ### The walk without a bound -/

/-- From a name the walk passes the types `links` and ends: at a built-in type, or at a name that
means nothing. -/
inductive Ends (reg : Registry) : String → List TypeDef → Except LookupError BaseType → Prop where
  | builtIn {name : String} {b : BaseType} (h : reg.find name = .ok (.builtIn b)) :
      Ends reg name [] (.ok b)
  | unknown {name : String} {e : LookupError} (h : reg.find name = .error e) :
      Ends reg name [] (.error e)
  | declared {name : String} {t : TypeDef} {links : List TypeDef} {r : Except LookupError BaseType}
      (h : reg.find name = .ok (.declared t)) (up : Ends reg t.supertype links r) :
      Ends reg name (t :: links) r

/-- From a name the walk goes on for ever. -/
def Endless (reg : Registry) (name : String) : Prop :=
  ∃ at_ : Nat → String, at_ 0 = name ∧
    ∀ i, ∃ t, reg.find (at_ i) = .ok (.declared t) ∧ at_ (i + 1) = t.supertype

/-- The walk from a name ends at a built-in type. -/
def Reaches (reg : Registry) (name : String) (b : BaseType) : Prop :=
  ∃ links, reg.Ends name links (.ok b)

/-- The first name on the walk that means nothing is `missing`. -/
def Misses (reg : Registry) (name missing : String) : Prop :=
  ∃ links, reg.Ends name links (.error (.unknown missing))

/-- Why the walk from a name does not reach a built-in type. -/
inductive Fails (reg : Registry) (name : String) : LookupError → Prop where
  | unknown {missing : String} (h : reg.Misses name missing) : Fails reg name (.unknown missing)
  | cycle (h : reg.Endless name) : Fails reg name (.cycle name)

/-- A walk that ends has one end, and one way there. -/
theorem Ends.unique {name : String} {links links' : List TypeDef}
    {r r' : Except LookupError BaseType} (h : reg.Ends name links r)
    (h' : reg.Ends name links' r') : links = links' ∧ r = r' := by
  induction h generalizing links' r' with
  | builtIn hf =>
      cases h' with
      | builtIn hf' => rw [hf] at hf'; cases hf'; exact ⟨rfl, rfl⟩
      | unknown hf' | declared hf' _ => rw [hf] at hf'; cases hf'
  | unknown hf =>
      cases h' with
      | unknown hf' => rw [hf] at hf'; cases hf'; exact ⟨rfl, rfl⟩
      | builtIn hf' | declared hf' _ => rw [hf] at hf'; cases hf'
  | declared hf _ ih =>
      cases h' with
      | builtIn hf' | unknown hf' => rw [hf] at hf'; cases hf'
      | declared hf' up' =>
          rw [hf] at hf'
          cases hf'
          obtain ⟨rfl, rfl⟩ := ih up'
          exact ⟨rfl, rfl⟩

/-- The end of a walk that ends without a built-in type is a name that means nothing. -/
theorem Ends.error {name : String} {links : List TypeDef} {e : LookupError}
    (h : reg.Ends name links (.error e)) : ∃ missing, e = .unknown missing := by
  generalize hr : (Except.error e : Except LookupError BaseType) = r at h
  induction h with
  | builtIn _ => cases hr
  | unknown hf => cases hr; exact ⟨_, (find_eq_error_iff.1 hf).1⟩
  | declared _ _ ih => exact ih hr

/-! ### How long a walk is -/

/-- From a type on the walk on, the walk is a part of what it was. -/
theorem Ends.from {name : String} {links : List TypeDef} {r : Except LookupError BaseType}
    (h : reg.Ends name links r) {t : TypeDef} (ht : t ∈ links) :
    ∃ after, reg.Ends t.name (t :: after) r ∧ after.length < links.length := by
  induction h with
  | builtIn _ | unknown _ => cases ht
  | @declared name u links r hf up ih =>
      rcases List.mem_cons.1 ht with rfl | ht
      · have hname := name_of_find hf
        exact ⟨links, hname ▸ .declared hf up, Nat.lt_succ_self _⟩
      · obtain ⟨after, hafter, hlt⟩ := ih ht
        exact ⟨after, hafter, Nat.lt_succ_of_lt hlt⟩

/-- **A walk that ends passes no name twice.** -/
theorem Ends.nodup {name : String} {links : List TypeDef} {r : Except LookupError BaseType}
    (h : reg.Ends name links r) : (links.map (·.name)).Nodup := by
  induction h with
  | builtIn _ | unknown _ => exact List.nodup_nil
  | @declared name t links r hf up ih =>
      refine List.nodup_cons.2 ⟨fun hmem => ?_, ih⟩
      obtain ⟨u, hu, hname⟩ := List.mem_map.1 hmem
      obtain ⟨after, hafter, hlt⟩ := up.from hu
      -- the walk comes by `name` again, and must be as long from there as it was
      have hagain : reg.Ends name (u :: after) r := by
        rwa [show u.name = name from hname.trans (name_of_find hf)] at hafter
      have heq := (hagain.unique (.declared hf up)).1
      rw [List.cons.injEq] at heq
      rw [heq.2] at hlt
      exact Nat.lt_irrefl _ hlt

/-- All that a walk passes is declared. -/
theorem Ends.mem_types {name : String} {links : List TypeDef} {r : Except LookupError BaseType}
    (h : reg.Ends name links r) {t : TypeDef} (ht : t ∈ links) : t ∈ reg.types := by
  obtain ⟨after, hafter, -⟩ := h.from ht
  cases hafter with
  | declared hf _ => exact mem_of_find hf

/-- **A walk that ends is no longer than any list of all the declared names.** -/
theorem Ends.length_le {name : String} {links : List TypeDef} {r : Except LookupError BaseType}
    (h : reg.Ends name links r) {names : List String} (hnames : ∀ t ∈ reg.types, t.name ∈ names) :
    links.length ≤ names.length := by
  -- no name comes twice, so there are at most as many as in any list with all of them
  have hsub : links.map (·.name) ⊆ names := fun n hn => by
    obtain ⟨t, ht, rfl⟩ := List.mem_map.1 hn
    exact hnames t (h.mem_types ht)
  simpa using (List.subperm_of_subset h.nodup hsub).length_le

/-! ### Walks that do not end -/

/-- The supertype of what is declared under a name; other names stay as they are. -/
def up (reg : Registry) (name : String) : String :=
  match reg.find name with
  | .ok (.declared t) => t.supertype
  | _ => name

/-- **The walk from a name ends, or it is endless.** -/
theorem ends_or_endless (reg : Registry) (name : String) :
    (∃ links r, reg.Ends name links r) ∨ reg.Endless name := by
  by_cases h : ∃ links r, reg.Ends name links r
  · exact .inl h
  · refine .inr ⟨fun i => reg.up^[i] name, rfl, fun i => ?_⟩
    -- a walk that ended from a later name would end from the first
    have hnot : ∀ i, ¬ ∃ links r, reg.Ends (reg.up^[i] name) links r := fun i => by
      induction i with
      | zero => exact h
      | succ i ih =>
          rintro ⟨links, r, hends⟩
          rw [Function.iterate_succ_apply', up] at hends
          split at hends
          · next t hf => exact ih ⟨t :: links, r, .declared hf hends⟩
          · exact ih ⟨links, r, hends⟩
    cases hf : reg.find (reg.up^[i] name) with
    | error e => exact absurd ⟨[], _, .unknown hf⟩ (hnot i)
    | ok m =>
        cases m with
        | builtIn b => exact absurd ⟨[], _, .builtIn hf⟩ (hnot i)
        | declared t =>
            refine ⟨t, rfl, ?_⟩
            show reg.up^[i + 1] name = t.supertype
            rw [Function.iterate_succ_apply', up, hf]

/-! ### The bounded walk -/

section Climb
variable {α : Type} {top : BaseType → α} {stop : TypeDef → Except LookupError (Option α)}

/-- With more lookups than there are types to pass, the bounded walk stops where the unbounded one
passes the first type that there is something for, or sees its end. -/
theorem walk_of_ends {start name : String} {links : List TypeDef}
    {r : Except LookupError BaseType} (h : reg.Ends name links r) {pick : TypeDef → Option α}
    (hstop : ∀ t ∈ links, stop t = .ok (pick t)) {n : Nat} (hn : links.length < n) :
    reg.walk top stop start n name =
      match links.findSome? pick with
      | some a => .ok a
      | none => r.map top := by
  induction h generalizing n with
  | builtIn hf | unknown hf =>
      obtain ⟨n, rfl⟩ := Nat.exists_eq_add_one.2 hn
      rw [walk, hf]
      rfl
  | @declared name t links r hf _ ih =>
      obtain ⟨n, rfl⟩ := Nat.exists_eq_add_one.2 (Nat.zero_lt_of_lt hn)
      -- there may be something for `t`; if not, the walk goes on with one lookup less
      have hlater := ih (fun u hu => hstop u (List.mem_cons_of_mem t hu)) (Nat.lt_of_succ_lt_succ hn)
      rw [walk, hf, List.findSome?_cons]
      simp only [hstop t List.mem_cons_self]
      cases pick t with
      | some a => rfl
      | none => exact hlater

/-- **A walk passes no more types than are declared**, so the registry's sees all of it. -/
theorem climb_of_ends {name : String} {links : List TypeDef} {r : Except LookupError BaseType}
    (h : reg.Ends name links r) {pick : TypeDef → Option α}
    (hstop : ∀ t ∈ links, stop t = .ok (pick t)) :
    reg.climb top stop name =
      match links.findSome? pick with
      | some a => .ok a
      | none => r.map top :=
  walk_of_ends h hstop <| Nat.lt_succ_of_le <| h.length_le fun _ ht =>
    List.mem_eraseDups.2 (List.mem_map_of_mem ht)

/-- An endless walk uses up any bound. -/
theorem walk_of_endless {start name : String} (h : reg.Endless name)
    (hstop : ∀ t, stop t = .ok none) (n : Nat) :
    reg.walk top stop start n name = .error (.cycle start) := by
  induction n generalizing name with
  | zero => rfl
  | succ n ih =>
      obtain ⟨at_, rfl, hat⟩ := h
      obtain ⟨t, ht, hnext⟩ := hat 0
      have hup : reg.Endless t.supertype := ⟨fun i => at_ (i + 1), hnext, fun i => hat (i + 1)⟩
      rw [walk, ht]
      simp only [hstop t, ih hup]

end Climb

/-! ### The built-in type at the end -/

/-- A walk that ends gives the answer at its end. -/
theorem baseOf_of_ends {name : String} {links : List TypeDef} {r : Except LookupError BaseType}
    (h : reg.Ends name links r) : reg.baseOf name = r := by
  have hnone : links.findSome? (fun _ => (none : Option BaseType)) = none := by simp
  rw [baseOf, climb_of_ends h fun _ _ => rfl, hnone]
  cases r <;> rfl

/-- An endless walk gives a cycle, told of the name where it starts. -/
theorem baseOf_of_endless {name : String} (h : reg.Endless name) :
    reg.baseOf name = .error (.cycle name) :=
  walk_of_endless h (fun _ => rfl) _

/-- **The registry finds a built-in type exactly where the walk reaches it.** -/
theorem baseOf_eq_ok_iff {name : String} {b : BaseType} :
    reg.baseOf name = .ok b ↔ reg.Reaches name b := by
  constructor
  · intro h
    rcases ends_or_endless reg name with ⟨links, r, hends⟩ | hendless
    · rw [baseOf_of_ends hends] at h
      exact ⟨links, h ▸ hends⟩
    · rw [baseOf_of_endless hendless] at h
      cases h
  · rintro ⟨links, h⟩
    exact baseOf_of_ends h

/-- **The registry fails exactly where the walk does, and for that reason.** -/
theorem baseOf_eq_error_iff {name : String} {e : LookupError} :
    reg.baseOf name = .error e ↔ reg.Fails name e := by
  constructor
  · intro h
    rcases ends_or_endless reg name with ⟨links, r, hends⟩ | hendless
    · rw [baseOf_of_ends hends] at h
      subst h
      obtain ⟨missing, rfl⟩ := hends.error
      exact .unknown ⟨links, hends⟩
    · rw [baseOf_of_endless hendless] at h
      cases h
      exact .cycle hendless
  · rintro (⟨links, hends⟩ | hendless)
    · exact baseOf_of_ends hends
    · exact baseOf_of_endless hendless

/-- A name comes down to one built-in type. -/
theorem Reaches.unique {name : String} {b b' : BaseType} (h : reg.Reaches name b)
    (h' : reg.Reaches name b') : b = b' :=
  Except.ok.inj ((baseOf_eq_ok_iff.2 h).symm.trans (baseOf_eq_ok_iff.2 h'))

/-- A name fails for one reason. -/
theorem Fails.unique {name : String} {e e' : LookupError} (h : reg.Fails name e)
    (h' : reg.Fails name e') : e = e' :=
  Except.error.inj ((baseOf_eq_error_iff.2 h).symm.trans (baseOf_eq_error_iff.2 h'))

theorem Fails.not_reaches {name : String} {e : LookupError} {b : BaseType} (h : reg.Fails name e) :
    ¬ reg.Reaches name b := fun hb => by
  have hok := baseOf_eq_ok_iff.2 hb
  rw [baseOf_eq_error_iff.2 h] at hok
  cases hok

/-- Every name comes down to a built-in type or fails. -/
theorem reaches_or_fails (reg : Registry) (name : String) :
    (∃ b, reg.Reaches name b) ∨ ∃ e, reg.Fails name e := by
  cases h : reg.baseOf name with
  | ok b => exact .inl ⟨b, baseOf_eq_ok_iff.1 h⟩
  | error e => exact .inr ⟨e, baseOf_eq_error_iff.1 h⟩

/-- A referent comes down to what its name does. -/
theorem baseOfReferent_of_find {name : String} {m : Referent} (h : reg.find name = .ok m) :
    reg.baseOfReferent m = reg.baseOf name := by
  cases m with
  | builtIn b => exact (baseOf_of_ends (.builtIn h)).symm
  | declared t => rw [baseOfReferent, name_of_find h]

/-- A name that comes down to something means something. -/
theorem find_of_reaches {name : String} {b : BaseType} (h : reg.Reaches name b) :
    ∃ m, reg.find name = .ok m ∧ reg.baseOfReferent m = .ok b := by
  obtain ⟨links, hends⟩ := h
  cases hends with
  | builtIn hf => exact ⟨_, hf, rfl⟩
  | declared hf up =>
      exact ⟨_, hf, (baseOfReferent_of_find hf).trans (baseOf_of_ends (.declared hf up))⟩

/-! ### One step up -/

/-- A walk from a name that means a declared type passes this type and goes on from its supertype. -/
theorem Ends.of_find {name : String} {t : TypeDef} {links : List TypeDef}
    {r : Except LookupError BaseType} (hends : reg.Ends name links r)
    (h : reg.find name = .ok (.declared t)) :
    ∃ later, links = t :: later ∧ reg.Ends t.supertype later r := by
  cases hends with
  | builtIn hf | unknown hf => rw [h] at hf; cases hf
  | declared hf up =>
      rw [h] at hf
      cases hf
      exact ⟨_, rfl, up⟩

/-- A walk that is endless from a supertype is so from the type. -/
theorem Endless.of_find {name : String} {t : TypeDef} (h : reg.find name = .ok (.declared t))
    (up : reg.Endless t.supertype) : reg.Endless name := by
  obtain ⟨at_, hfirst, hat⟩ := up
  refine ⟨fun | 0 => name | i + 1 => at_ i, rfl, fun i => ?_⟩
  cases i with
  | zero => exact ⟨t, h, hfirst⟩
  | succ i => exact hat i

/-- **One step up changes nothing but where an endless walk is said to begin.** -/
theorem baseOf_of_find {name : String} {t : TypeDef} (h : reg.find name = .ok (.declared t)) :
    (∃ b, reg.baseOf name = .ok b ∧ reg.baseOf t.supertype = .ok b) ∨
      (∃ missing, reg.baseOf name = .error (.unknown missing) ∧
        reg.baseOf t.supertype = .error (.unknown missing)) ∨
      reg.baseOf name = .error (.cycle name) ∧
        reg.baseOf t.supertype = .error (.cycle t.supertype) := by
  rcases ends_or_endless reg t.supertype with ⟨links, r, up⟩ | up
  · have hname : reg.baseOf name = r := baseOf_of_ends (.declared h up)
    have hsupertype : reg.baseOf t.supertype = r := baseOf_of_ends up
    cases r with
    | ok b => exact .inl ⟨b, hname, hsupertype⟩
    | error e =>
        obtain ⟨missing, rfl⟩ := up.error
        exact .inr (.inl ⟨missing, hname, hsupertype⟩)
  · exact .inr (.inr ⟨baseOf_of_endless (up.of_find h), baseOf_of_endless up⟩)

/-- **The registry's walk gives the answer of the walk without a bound**: the built-in type that
this reaches, the first name on it that means nothing, or that it never ends.  From a name that
means a declared type it gives what it gives from the supertype. -/
theorem baseOf_decided (s : Schema) (name : String) :
    let reg := Registry.ofSchema s
    (∀ b, reg.baseOf name = .ok b ↔ reg.Reaches name b) ∧
      (∀ missing, reg.baseOf name = .error (.unknown missing) ↔ reg.Misses name missing) ∧
      (∀ start, reg.baseOf name = .error (.cycle start) ↔ start = name ∧ reg.Endless name) ∧
      ∀ t, reg.find name = .ok (.declared t) →
        (∃ b, reg.baseOf name = .ok b ∧ reg.baseOf t.supertype = .ok b) ∨
          (∃ missing, reg.baseOf name = .error (.unknown missing) ∧
            reg.baseOf t.supertype = .error (.unknown missing)) ∨
          reg.baseOf name = .error (.cycle name) ∧
            reg.baseOf t.supertype = .error (.cycle t.supertype) := by
  refine ⟨fun b => baseOf_eq_ok_iff, fun missing => ?_, fun start => ?_, fun t => baseOf_of_find⟩
  · rw [baseOf_eq_error_iff]
    exact ⟨fun | .unknown h => h, .unknown⟩
  · rw [baseOf_eq_error_iff]
    constructor
    · rintro ⟨⟩
      exact ⟨rfl, by assumption⟩
    · rintro ⟨rfl, h⟩
      exact .cycle h

/-- A walk past every type that a name means, with a shadowed type and one that has the name of a
built-in type: either of these would lead it astray. -/
theorem baseOf_decided_shadowed :
    let s : Schema := ⟨"Chain", [⟨"A", "Nowhere", none, .bare⟩, ⟨"C", "Int32", none, .bare⟩,
      ⟨"Int32", "A", none, .bare⟩, ⟨"B", "C", none, .union []⟩, ⟨"A", "B", none, .bare⟩]⟩
    let reg := Registry.ofSchema s
    reg.find "A" = .ok (.declared ⟨"A", "B", none, .bare⟩) ∧ reg.baseOf "A" = .ok .int32 ∧
      reg.Reaches "A" .int32 ∧
      ((∃ b, reg.baseOf "A" = .ok b ∧ reg.baseOf "B" = .ok b) ∨
        (∃ missing, reg.baseOf "A" = .error (.unknown missing) ∧
          reg.baseOf "B" = .error (.unknown missing)) ∨
        reg.baseOf "A" = .error (.cycle "A") ∧ reg.baseOf "B" = .error (.cycle "B")) := by
  intro s reg
  have hfind : reg.find "A" = .ok (.declared ⟨"A", "B", none, .bare⟩) := rfl
  have hbase : reg.baseOf "A" = .ok .int32 := rfl
  exact ⟨hfind, hbase, ((baseOf_decided s "A").1 _).1 hbase, (baseOf_decided s "A").2.2.2 _ hfind⟩

end Registry
end InterfaceSchema
