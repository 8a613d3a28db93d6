import InterfaceSchema.Output
import InterfaceSchema.Conversion

/-!
# Log

What the program tells about its work while it goes on, and how much of it is asked for.
-/

namespace InterfaceSchema

/-- How much a line matters, from the most on. -/
inductive Level where
  | warn
  | info
  | debug
  | trace
deriving DecidableEq, Repr

def Level.rank : Level → Nat
  | .warn  => 0
  | .info  => 1
  | .debug => 2
  | .trace => 3

def Level.text : Level → String
  | .warn  => "WARN"
  | .info  => "INFO"
  | .debug => "DEBUG"
  | .trace => "TRACE"

/-- The least level that is shown for so many requests to tell more. -/
def Level.ofVerbosity : Nat → Level
  | 0 => .warn
  | 1 => .info
  | 2 => .debug
  | _ => .trace

/-- Something to tell. -/
inductive Event where
  | sourceIgnored (source : String)
  | basePathAccepted (basePath : String)
  | unionSkipped (name : String) (variants : List String)
  | nothingDefined (name : String)
  | converted (schema : String) (types : Nat)
  | writing (target : Target) (octets : Nat)
deriving DecidableEq, Repr

def Event.level : Event → Level
  | .converted .. => .info
  | _ => .debug

def Event.text : Event → String
  | .sourceIgnored source => "ignoring IDL source path source=" ++ Text.quoted source
  | .basePathAccepted basePath =>
    "base path accepted; references stay document-local base_path=" ++ Text.quoted basePath
  | .unionSkipped name variants =>
    "skipping union union=" ++ name ++ " variants=" ++ Text.quotedList variants
  | .nothingDefined name => "no definition emitted name=" ++ Text.quoted name
  | .converted schema types =>
    "translated schema schema=" ++ schema ++ " types=" ++ toString types
  | .writing target octets =>
    "writing document target=" ++ target.text ++ " bytes=" ++ toString octets

/-- The event is told at a level. -/
def Event.shownAt (e : Event) (level : Level) : Bool := e.level.rank ≤ level.rank

/-- What there is to tell about one type and what came of it. -/
def TypeDef.events (t : TypeDef) (definition : Option Draft.Definition) : List Event :=
  (match t.form with
    | .union variants => [.unionSkipped t.name variants]
    | _ => []) ++
  if definition.isNone then [.nothingDefined t.name] else []

/-- What there is to tell about converting types in order, as far as it goes well. -/
def Registry.events (reg : Registry) : List TypeDef → List Event
  | [] => []
  | t :: ts =>
    match reg.define (.declared t) with
    | .error _ => []
    | .ok definition => t.events definition ++ reg.events ts

end InterfaceSchema
