import InterfaceSchema.Idl.Basic

/-!
# Registry

What a name means among the declared types, and where its chain of supertypes leads.  A built-in
name always means the built-in type; of the types declared under one name the last is meant.  A
walk goes from a name to the supertype of what it means, and on from there.  It cannot go on for
longer than there are declared names without coming back to one of them, so a walk of that
length decides.
-/

namespace InterfaceSchema

/-- Why a name leads nowhere. -/
inductive LookupError where
  /-- The name is neither built in nor declared. -/
  | unknown (name : String)
  /-- The chain that starts at the name never ends. -/
  | cycle (start : String)
deriving DecidableEq, Repr

def LookupError.message : LookupError → String
  | .unknown name => "unknown type reference `" ++ name ++ "`"
  | .cycle start  => "alias chain starting at `" ++ start ++ "` never reaches a base type"

/-- What a name means. -/
inductive Referent where
  | builtIn (base : BaseType)
  | declared (type : TypeDef)
deriving DecidableEq, Repr

def Referent.name : Referent → String
  | .builtIn b  => b.name
  | .declared t => t.name

/-- The declared types, in order of declaration. -/
structure Registry where
  types : List TypeDef

namespace Registry

def ofSchema (s : Schema) : Registry := ⟨s.types⟩

/-- The number of names under which types are declared. -/
def size (reg : Registry) : Nat := (reg.types.map (·.name)).eraseDups.length

/-- The last type declared under a name. -/
def declared? (reg : Registry) (name : String) : Option TypeDef :=
  reg.types.reverse.find? (·.name == name)

/-- What a name means. -/
def find (reg : Registry) (name : String) : Except LookupError Referent :=
  match BaseType.ofName? name with
  | some b => .ok (.builtIn b)
  | none =>
    match reg.declared? name with
    | some t => .ok (.declared t)
    | none => .error (.unknown name)

/-- Walks up from `name` for so many lookups; `start` is where the walk began.  It ends at the
first declared type that `stop` has something for, or at a built-in type, for which there is
`top`. -/
def walk {α : Type} (reg : Registry) (top : BaseType → α)
    (stop : TypeDef → Except LookupError (Option α)) (start : String) :
    Nat → String → Except LookupError α
  | 0,     _    => .error (.cycle start)
  | n + 1, name =>
    match reg.find name with
    | .error e => .error e
    | .ok (.builtIn b) => .ok (top b)
    | .ok (.declared t) =>
      match stop t with
      | .error e => .error e
      | .ok (some a) => .ok a
      | .ok none => reg.walk top stop start n t.supertype

/-- Walks up from a name, for long enough to come by every declared name. -/
def climb {α : Type} (reg : Registry) (top : BaseType → α)
    (stop : TypeDef → Except LookupError (Option α)) (name : String) : Except LookupError α :=
  reg.walk top stop name (reg.size + 1) name

/-- The built-in type at the end of the chain from a name. -/
def baseOf (reg : Registry) (name : String) : Except LookupError BaseType :=
  reg.climb id (fun _ => .ok none) name

/-- The built-in type that a type comes down to; a declared type is looked up by its name. -/
def baseOfReferent (reg : Registry) : Referent → Except LookupError BaseType
  | .builtIn b  => .ok b
  | .declared t => reg.baseOf t.name

end Registry

end InterfaceSchema
