/-!
# Entries

Values under names, in the order in which the names first came.  A later value under a name
replaces the earlier one where that stands.
-/

namespace InterfaceSchema

/-- Values under names, in order. -/
abbrev Entries (α : Type) := List (String × α)

namespace Entries
variable {α : Type}

/-- Puts a value under a name: in place of the value there, or at the end. -/
def insert (name : String) (value : α) : Entries α → Entries α
  | []     => [(name, value)]
  | e :: es => if e.1 = name then (name, value) :: es else e :: insert name value es

/-- The value under a name. -/
def get? (name : String) : Entries α → Option α
  | []     => none
  | e :: es => if e.1 = name then some e.2 else get? name es

/-- The names, in order. -/
def names (es : Entries α) : List String := es.map (·.1)

/-- What has been put under a name is found there. -/
theorem get?_insert_self (name : String) (value : α) (es : Entries α) :
    get? name (insert name value es) = some value := by
  induction es with
  | nil => simp [insert, get?]
  | cons e es ih => by_cases h : e.1 = name <;> simp [insert, get?, h, ih]

/-- What stands under other names stays. -/
theorem get?_insert_of_ne {name other : String} (value : α) (es : Entries α) (h : name ≠ other) :
    get? other (insert name value es) = get? other es := by
  induction es with
  | nil => simp [insert, get?, h]
  | cons e es ih =>
    by_cases he : e.1 = name
    · simp [insert, get?, he, h]
    · simp only [insert, he, if_false, get?, ih]

/-- A name already there keeps its place; a new one comes last. -/
theorem names_insert (name : String) (value : α) (es : Entries α) :
    names (insert name value es) = if name ∈ names es then names es else names es ++ [name] := by
  induction es with
  | nil => simp [insert, names]
  | cons e es ih =>
    simp only [names] at ih ⊢
    by_cases he : e.1 = name
    · simp [insert, he]
    · have : name ≠ e.1 := fun h => he h.symm
      by_cases hm : name ∈ es.map (·.1) <;> simp_all [insert]

/-- No name comes to stand twice. -/
theorem nodup_names_insert {name : String} {value : α} {es : Entries α} (h : (names es).Nodup) :
    (names (insert name value es)).Nodup := by
  rw [names_insert]
  split
  case isTrue => exact h
  case isFalse hm =>
    exact List.nodup_append.2 ⟨h, by simp, by simp; exact fun a ha hab => hm (hab ▸ ha)⟩

end Entries

end InterfaceSchema
