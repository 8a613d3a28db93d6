/-!
# Interface descriptions — base types

The types that are built in.  Every chain of supertypes that ends well ends at one of them.
-/

namespace InterfaceSchema

/-- A built-in type. -/
inductive BaseType where
  | int8
  | int16
  | int32
  | int64
  | float32
  | float64
  | string
  | bool
  | timestamp
  | uuid
  | symbol
  | array
  | map
  | struct
  | enum
  | union
  | any
deriving DecidableEq, Repr

namespace BaseType

/-- All built-in types, in their order. -/
def all : List BaseType :=
  [int8, int16, int32, int64, float32, float64, string, bool, timestamp, uuid, symbol, array, map,
    struct, enum, union, any]

/-- The name that refers to the type. -/
def name : BaseType → String
  | int8      => "Int8"
  | int16     => "Int16"
  | int32     => "Int32"
  | int64     => "Int64"
  | float32   => "Float32"
  | float64   => "Float64"
  | string    => "String"
  | bool      => "Bool"
  | timestamp => "Timestamp"
  | uuid      => "UUID"
  | symbol    => "Symbol"
  | array     => "Array"
  | map       => "Map"
  | struct    => "Struct"
  | enum      => "Enum"
  | union     => "Union"
  | any       => "Any"

/-- The built-in type of a name. -/
def ofName? (name : String) : Option BaseType := all.find? (·.name == name)

/-- The place of the type in the order. -/
def position (b : BaseType) : Nat := all.idxOf b

/-- Integers of more than one octet. -/
def isWideInteger : BaseType → Bool
  | int16 | int32 | int64 => true
  | _ => false

def isNumeric : BaseType → Bool
  | int8 | int16 | int32 | int64 | float32 | float64 => true
  | _ => false

theorem mem_all (b : BaseType) : b ∈ all := by cases b <;> decide

/-- Built-in types are told apart by their names. -/
theorem name_injective {a b : BaseType} (h : a.name = b.name) : a = b := by
  cases a <;> cases b <;> simp_all [name]

/-- Reading a name undoes writing it. -/
theorem ofName?_eq_some_iff {n : String} {b : BaseType} : ofName? n = some b ↔ b.name = n := by
  constructor
  · intro h
    simpa using List.find?_some h
  · rintro rfl
    match h : ofName? b.name with
    | none => exact absurd (List.find?_eq_none.1 h b (mem_all b)) (by simp)
    | some a =>
      have ha : a.name = b.name := by simpa using List.find?_some h
      rw [name_injective ha]

/-- All other names are those of no built-in type. -/
theorem ofName?_eq_none_iff {n : String} : ofName? n = none ↔ ∀ b : BaseType, b.name ≠ n := by
  simp only [Option.eq_none_iff_forall_ne_some, ne_eq, ofName?_eq_some_iff]

end BaseType

end InterfaceSchema
