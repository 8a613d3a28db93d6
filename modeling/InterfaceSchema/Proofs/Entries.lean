import Mathlib.Data.List.Induction
import Mathlib.Data.List.Nodup
import InterfaceSchema.Entries

/-!
# Entries put in one after the other

`Entries.ofList ps` puts the pairs `ps` in, from the first to the last.

* `names_ofList`: the names are those of the pairs, each once, where it first came.
* `get?_ofList`: the value under a name is the last of the pairs' values under it.
* `mem_iff_get?`: where no name comes twice, an entry is what look-up by its name gives.
* `mem_ofList_filterMap_iff`: of the values that the members of a list have, the last under a name
  stays.
* `ofList_eq_self`: pairs whose names are all different stand as they were put in.
* `filter_ofList`: what is put in under a name has no part in what stands under other names.
-/

namespace InterfaceSchema

/-- The last of its kind in a list: no other of the kind comes after it. -/
theorem find?_reverse_eq_some_iff {α : Type} {p : α → Bool} {l : List α} {a : α} :
    l.reverse.find? p = some a ↔
      p a ∧ ∃ before after, l = before ++ a :: after ∧ ∀ b ∈ after, ¬ p b := by
  rw [List.find?_eq_some_iff_append]
  refine and_congr_right fun _ => ⟨?_, ?_⟩
  · rintro ⟨after, before, h, hafter⟩
    refine ⟨before.reverse, after.reverse, ?_, by simpa using hafter⟩
    rw [← l.reverse_reverse, h]
    simp
  · rintro ⟨before, after, rfl, hafter⟩
    exact ⟨after.reverse, before.reverse, by simp, by simpa using hafter⟩

namespace Entries
variable {α β : Type}

/-- The pairs put in one after the other. -/
def ofList (ps : List (String × α)) : Entries α := ps.foldl (fun es p => insert p.1 p.2 es) []

/-- The pair that comes last is put in last. -/
theorem ofList_concat (ps : List (String × α)) (p : String × α) :
    ofList (ps ++ [p]) = insert p.1 p.2 (ofList ps) := by
  simp [ofList]

theorem insert_ne_nil (name : String) (value : α) (es : Entries α) : insert name value es ≠ [] := by
  cases es with
  | nil => simp [insert]
  | cons e es => rw [insert]; split <;> simp

theorem ofList_eq_nil_iff {ps : List (String × α)} : ofList ps = [] ↔ ps = [] := by
  rcases List.eq_nil_or_concat ps with rfl | ⟨ps, p, rfl⟩
  · simp [ofList]
  · simp [ofList_concat, insert_ne_nil]

/-! ### Names -/

/-- **Names stand where they first came.** -/
theorem names_ofList (ps : List (String × α)) :
    names (ofList ps) = (ps.map (·.1)).eraseDups := by
  induction ps using List.reverseRecOn with
  | nil => rfl
  | append_singleton ps p ih =>
      -- the last pair adds its name if no pair before it has it
      have hlast : ([p.1].removeAll (ps.map (·.1))).eraseDups
          = if p.1 ∈ ps.map (·.1) then [] else [p.1] := by
        by_cases hp : p.1 ∈ ps.map (·.1) <;> simp [List.removeAll, hp, List.eraseDups_cons]
      rw [ofList_concat, names_insert, ih, List.map_append, List.map_singleton,
        List.eraseDups_append, hlast]
      simp only [List.mem_eraseDups]
      split <;> simp

theorem nodup_names_ofList (ps : List (String × α)) : (names (ofList ps)).Nodup := by
  induction ps using List.reverseRecOn with
  | nil => exact List.nodup_nil
  | append_singleton ps p ih =>
      rw [ofList_concat]
      exact nodup_names_insert ih

/-- A new name comes last. -/
theorem insert_of_not_mem {name : String} {value : α} {es : Entries α} (h : name ∉ names es) :
    insert name value es = es ++ [(name, value)] := by
  induction es with
  | nil => rfl
  | cons e es ih =>
      obtain ⟨hne, hes⟩ : name ≠ e.1 ∧ name ∉ names es := by simpa [names] using h
      rw [insert, if_neg (Ne.symm hne), ih hes]
      rfl

/-- **Pairs whose names are all different stand as they were put in.** -/
theorem ofList_eq_self {ps : List (String × α)} (h : (ps.map (·.1)).Nodup) : ofList ps = ps := by
  induction ps using List.reverseRecOn with
  | nil => rfl
  | append_singleton ps p ih =>
      rw [List.map_append, List.nodup_append] at h
      obtain ⟨hps, -, hdiff⟩ := h
      have hnew : p.1 ∉ names (ofList ps) := by
        rw [ih hps]
        exact fun hp => hdiff p.1 hp p.1 (by simp) rfl
      rw [ofList_concat, insert_of_not_mem hnew, ih hps]

/-! ### Values -/

/-- **The last value under a name is the one that stays.** -/
theorem get?_ofList (name : String) (ps : List (String × α)) :
    get? name (ofList ps) = (ps.reverse.find? (·.1 == name)).map (·.2) := by
  induction ps using List.reverseRecOn with
  | nil => rfl
  | append_singleton ps p ih =>
      rw [ofList_concat, List.reverse_concat]
      -- the last pair decides, or has nothing to do with the name
      by_cases hp : p.1 = name
      · subst hp
        simp [get?_insert_self]
      · rw [get?_insert_of_ne p.2 _ hp, ih, List.find?_cons_of_neg (by simpa using hp)]

/-- Where no name comes twice, an entry is what look-up by its name gives. -/
theorem mem_iff_get? {name : String} {v : α} {es : Entries α} (h : (names es).Nodup) :
    (name, v) ∈ es ↔ get? name es = some v := by
  induction es with
  | nil => simp [get?]
  | cons e es ih =>
      obtain ⟨key, w⟩ := e
      obtain ⟨hkey, hes⟩ := List.nodup_cons.1 h
      by_cases hk : key = name
      · subst hk
        have hnot : (key, v) ∉ es := fun hm => hkey (List.mem_map_of_mem (f := (·.1)) hm)
        simp [get?, hnot, eq_comm]
      · simp [get?, hk, Ne.symm hk, ih hes]

/-- Where no name comes twice, the order does not matter to look-up. -/
theorem get?_of_perm {es es' : Entries α} (h : es.Perm es') (hnodup : (names es).Nodup)
    (name : String) : get? name es = get? name es' := by
  have hnodup' : (names es').Nodup := (h.map Prod.fst).nodup_iff.1 hnodup
  ext v
  rw [← mem_iff_get? hnodup, ← mem_iff_get? hnodup', h.mem_iff]

theorem eq_of_mem {name : String} {v w : α} {es : Entries α} (h : (names es).Nodup)
    (hv : (name, v) ∈ es) (hw : (name, w) ∈ es) : v = w :=
  Option.some.inj (((mem_iff_get? h).1 hv).symm.trans ((mem_iff_get? h).1 hw))

/-- **What stays of the values that the members of a list have**: no member of the name after it
has one. -/
theorem mem_ofList_filterMap_iff {key : β → String} {f : β → Option α} {xs : List β}
    {name : String} {v : α} :
    (name, v) ∈ ofList (xs.filterMap fun x => (f x).map fun v => (key x, v)) ↔
      ∃ before x after, xs = before ++ x :: after ∧ key x = name ∧ f x = some v ∧
        ∀ y ∈ after, key y = name → f y = none := by
  rw [mem_iff_get? (nodup_names_ofList _), get?_ofList, ← List.filterMap_reverse,
    List.find?_filterMap, Option.map_eq_some_iff]
  constructor
  · rintro ⟨⟨_, _⟩, hfind, rfl⟩
    obtain ⟨x, hx, hpair⟩ := Option.bind_eq_some_iff.1 hfind
    obtain ⟨hkey, before, after, rfl, hafter⟩ := find?_reverse_eq_some_iff.1 hx
    obtain ⟨w, hw, hpair⟩ := Option.map_eq_some_iff.1 hpair
    cases hpair
    refine ⟨before, x, after, rfl, by simpa [hw] using hkey, hw, fun y hy hname => ?_⟩
    have hnot := hafter y hy
    cases hf : f y with
    | none => rfl
    | some u => simp [hf, hname] at hnot
  · rintro ⟨before, x, after, rfl, rfl, hv, hafter⟩
    refine ⟨(key x, v), ?_, rfl⟩
    rw [find?_reverse_eq_some_iff.2 ⟨by simp [hv], before, after, rfl, fun y hy => ?_⟩]
    · simp [hv]
    · by_cases hname : key y = key x
      · simp [hafter y hy hname]
      · cases f y <;> simp [hname]

/-! ### Entries left out -/

theorem filter_insert (name other : String) (value : α) (es : Entries α) :
    (insert other value es).filter (·.1 ≠ name) =
      if other = name then es.filter (·.1 ≠ name)
      else insert other value (es.filter (·.1 ≠ name)) := by
  induction es with
  | nil => by_cases h : other = name <;> simp [insert, h]
  | cons e es ih =>
      by_cases he : e.1 = other
      · by_cases h : other = name <;> simp [insert, he, h]
      · rw [insert, if_neg he, List.filter_cons, ih, List.filter_cons]
        by_cases hname : e.1 = name <;> by_cases h : other = name <;> simp [insert, hname, h, he]

/-- **What is put in under a name has no part in what stands under other names.** -/
theorem filter_ofList (name : String) (ps : List (String × α)) :
    (ofList ps).filter (·.1 ≠ name) = ofList (ps.filter (·.1 ≠ name)) := by
  induction ps using List.reverseRecOn with
  | nil => rfl
  | append_singleton ps p ih =>
      rw [ofList_concat, filter_insert, ih, List.filter_append]
      by_cases hp : p.1 = name <;> simp [hp, ofList_concat]

/-! ### Values changed one by one -/

theorem names_map (f : α → β) (es : Entries α) :
    names (es.map fun e => (e.1, f e.2)) = names es := by
  simp [names, Function.comp_def]

theorem insert_map (f : α → β) (name : String) (value : α) (es : Entries α) :
    insert name (f value) (es.map fun e => (e.1, f e.2)) =
      (insert name value es).map fun e => (e.1, f e.2) := by
  induction es with
  | nil => rfl
  | cons e es ih => by_cases h : e.1 = name <;> simp [insert, h, ih]

theorem ofList_map (f : α → β) (ps : List (String × α)) :
    ofList (ps.map fun p => (p.1, f p.2)) = (ofList ps).map fun e => (e.1, f e.2) := by
  induction ps using List.reverseRecOn with
  | nil => rfl
  | append_singleton ps p ih =>
      rw [List.map_append, List.map_singleton, ofList_concat, ofList_concat, ih]
      exact insert_map f p.1 p.2 _

theorem get?_map (f : α → β) (name : String) (es : Entries α) :
    get? name (es.map fun e => (e.1, f e.2)) = (get? name es).map f := by
  induction es with
  | nil => rfl
  | cons e es ih => by_cases h : e.1 = name <;> simp [get?, h, ih]

end Entries

end InterfaceSchema
