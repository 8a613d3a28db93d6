import Mathlib.Data.Set.Card
import InterfaceSchema.Proofs.Chains

/-!
# What names mean

The declared types can be put under their names into a table, one after the other: a new name is
added, and a name that is there gets the later type.  The registry keeps no table; it looks for a
name from the last declaration back.  Both know the same.

* `get?_table`, `length_table`: look-up in the table is the registry's, and so is its size.
* `ncard_names`: the size is the number of declared names.
* `referent_name_of_find`: what a name means has this name.
* `find_decided`: a built-in name means the built-in type, another name the last type declared
  under it, and a name without a type nothing; what is found comes down to what the name does.
-/

namespace InterfaceSchema
namespace Registry
variable {reg : Registry}

/-! ### The table -/

/-- The declared types put in under their names, one after the other. -/
def table (reg : Registry) : Entries TypeDef := Entries.ofList (reg.types.map fun t => (t.name, t))

/-- **The last declaration of a name is the one that stays in the table.** -/
theorem get?_table (reg : Registry) (name : String) :
    Entries.get? name reg.table = reg.declared? name := by
  rw [table, Entries.get?_ofList, ← List.map_reverse, List.find?_map, Option.map_map, declared?]
  exact Option.map_id'

/-- Every declared name stands in the table once, where it first came. -/
theorem names_table (reg : Registry) :
    Entries.names reg.table = (reg.types.map (·.name)).eraseDups := by
  rw [table, Entries.names_ofList, List.map_map]
  rfl

theorem length_table (reg : Registry) : reg.table.length = reg.size := by
  rw [size, ← names_table, Entries.names, List.length_map]

/-- **The size of a registry is the number of the names declared**, however often each is. -/
theorem ncard_names (reg : Registry) : {n | ∃ t ∈ reg.types, t.name = n}.ncard = reg.size := by
  have hnodup : (Entries.names reg.table).Nodup := Entries.nodup_names_ofList _
  have hset : {n | ∃ t ∈ reg.types, t.name = n} = ↑(Entries.names reg.table).toFinset := by
    ext n
    simp [names_table]
  rw [hset, Set.ncard_coe_finset, List.toFinset_card_of_nodup hnodup, Entries.names,
    List.length_map, length_table]

/-! ### Names and what they mean -/

/-- What a name means has this name, be it built in or declared. -/
theorem referent_name_of_find {name : String} {m : Referent} (h : reg.find name = .ok m) :
    m.name = name := by
  cases m with
  | builtIn b => exact find_eq_builtIn_iff.1 h
  | declared t => exact name_of_find h

/-- **A name means one thing.**  A built-in name means the built-in type, whatever is declared under
it; another name means the last type declared under it; a name without a type means nothing.
Look-up from the last declaration back is look-up in the table, and the size counts names.  What
is found has the name that was looked for, so it is found again under its own name, and comes down
to what the name does, or to nothing for the same reason. -/
theorem find_decided (s : Schema) (name : String) :
    let reg := Registry.ofSchema s
    (∀ b, reg.find name = .ok (.builtIn b) ↔ b.name = name) ∧
    (∀ t, reg.find name = .ok (.declared t) ↔ (∀ b : BaseType, b.name ≠ name) ∧ t.name = name ∧
      ∃ before after, s.types = before ++ t :: after ∧ ∀ u ∈ after, u.name ≠ name) ∧
    (∀ e, reg.find name = .error e ↔ (∀ b : BaseType, b.name ≠ name) ∧
      (∀ t ∈ s.types, t.name ≠ name) ∧ e = .unknown name) ∧
    reg.declared? name = Entries.get? name reg.table ∧
    reg.size = reg.table.length ∧ reg.size = {n | ∃ t ∈ s.types, t.name = n}.ncard ∧
    ∀ m, reg.find name = .ok m →
      m.name = name ∧ reg.find m.name = .ok m ∧ reg.baseOfReferent m = reg.baseOf name := by
  intro reg
  refine ⟨fun b => find_eq_builtIn_iff, fun t => ?_, fun e => ?_, (get?_table reg name).symm,
    (length_table reg).symm, (ncard_names reg).symm, fun m hm => ?_⟩
  · rw [find_eq_declared_iff, BaseType.ofName?_eq_none_iff, declared?_eq_some_iff]
    rfl
  · rw [find_eq_error_iff, BaseType.ofName?_eq_none_iff, declared?_eq_none_iff]
    exact ⟨fun ⟨he, hb, ht⟩ => ⟨hb, ht, he⟩, fun ⟨hb, ht, he⟩ => ⟨he, hb, ht⟩⟩
  · have hname : m.name = name := referent_name_of_find hm
    refine ⟨hname, ?_, baseOfReferent_of_find hm⟩
    rw [hname, hm]

/-- A shadowed type, one that has the name of a built-in type, and a name that leads back to
itself: four declarations of three names. -/
theorem find_decided_shadowed :
    let s : Schema := ⟨"Loop", [⟨"A", "Int8", none, .bare⟩, ⟨"String", "A", none, .bare⟩,
      ⟨"B", "A", none, .bare⟩, ⟨"A", "B", none, .union []⟩]⟩
    let reg := Registry.ofSchema s
    let last : Referent := .declared ⟨"A", "B", none, .union []⟩
    reg.find "A" = .ok last ∧ reg.find "String" = .ok (.builtIn .string) ∧
      reg.find "C" = .error (.unknown "C") ∧ {n | ∃ t ∈ s.types, t.name = n}.ncard = 3 ∧
      reg.find last.name = .ok last ∧ reg.baseOfReferent last = .error (.cycle "A") := by
  intro s reg last
  have hlast : reg.find "A" = .ok last := ((find_decided s "A").2.1 _).2
    ⟨BaseType.ofName?_eq_none_iff.1 rfl, rfl, [_, _, _], [], rfl, nofun⟩
  have hunknown : reg.find "C" = .error (.unknown "C") := ((find_decided s "C").2.2.1 _).2
    ⟨BaseType.ofName?_eq_none_iff.1 rfl, by decide, rfl⟩
  obtain ⟨-, -, -, -, -, hcount, hfound⟩ := find_decided s "A"
  obtain ⟨-, hagain, hbase⟩ := hfound last hlast
  exact ⟨hlast, ((find_decided s "String").1 .string).2 rfl, hunknown, hcount.symm, hagain,
    hbase.trans rfl⟩

end Registry
end InterfaceSchema
