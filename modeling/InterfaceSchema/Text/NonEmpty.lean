/-!
# Text — given texts

An empty text counts as one that is not given.
-/

namespace InterfaceSchema

/-- A text that is given and not empty. -/
def nonEmpty? (text : Option String) : Option String := text.filter (· ≠ "")

/-- A text counts as it is, unless it is empty. -/
theorem nonEmpty?_eq_some_iff {text : Option String} {s : String} :
    nonEmpty? text = some s ↔ text = some s ∧ s ≠ "" := by
  simp [nonEmpty?, Option.filter_eq_some_iff]

end InterfaceSchema
