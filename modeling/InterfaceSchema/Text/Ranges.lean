/-!
# Text — ranges

Sets of code points as arrays of closed ranges.
-/

namespace InterfaceSchema.Text

/-- Closed ranges of code points, in rising order and apart from each other. -/
abbrev Ranges := Array (Nat × Nat)

/-- A code point is in the set when some range holds it. -/
def Ranges.has (rs : Ranges) (n : Nat) : Bool := rs.any fun r => r.1 ≤ n && n ≤ r.2

end InterfaceSchema.Text
