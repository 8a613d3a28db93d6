import InterfaceSchema.Draft
import InterfaceSchema.Registry
import InterfaceSchema.Text.LetterCase

/-!
# Conversion

From declared types to draft-04 definitions.  A reference is looked at in two ways that must be
kept apart: the base type at the end of its chain tells the kind of schema, and the declared
types on the chain tell whether there is a definition to refer to.  Types that produce no
definition are written out where they are used.
-/

namespace InterfaceSchema

open Draft (Element Content Property Body Definition)

/-- Why a type has no conversion. -/
inductive ConversionError where
  | lookup (e : LookupError)
  /-- No schema of the draft stands for another name of such a base type. -/
  | unsupported (name : String) (base : BaseType)
deriving DecidableEq, Repr

def ConversionError.message : ConversionError → String
  | .lookup e => e.message
  | .unsupported name base =>
    "type `" ++ name ++ "` has no JSON Schema form (base type " ++ base.name ++ ")"

/-- Whether integers in a collection say their format. -/
inductive IntegerFormat where
  | omitted
  | included
deriving DecidableEq, Repr

/-- What the type holds, if it is declared as a collection of the kind `base`. -/
def TypeDef.itemsAs? (t : TypeDef) (base : BaseType) : Option String :=
  match base, t.form with
  | .array, .array items => some items
  | .map, .map items     => some items
  | _, _                 => none

/-- A built-in collection says nothing of what it holds. -/
def Referent.itemsAs? : Referent → BaseType → Option String
  | .builtIn _,  _    => none
  | .declared t, base => t.itemsAs? base

namespace Registry

/-- A union leaves the reference unmapped; a type that produces a definition is what the
reference is to. -/
def nearestAt (reg : Registry) (reference : String) (t : TypeDef) :
    Except LookupError (Option Element) :=
  match t.form with
  | .struct _ | .enum _ | .map _ | .array _ => .ok (some (.ref t.name))
  | .text c  => .ok (if c.any then some (.ref t.name) else none)
  | .union _ => .ok (some (.unmapped reference))
  | .bare    =>
    (reg.baseOf t.supertype).map fun base => if base = .struct then some (.ref t.name) else none

/-- The first type on the chain that produces a definition, or the built-in type at its end; a
union before that leaves the reference unmapped. -/
def nearest (reg : Registry) (reference : String) : Except LookupError Element :=
  reg.climb (fun b => .ref b.name) (reg.nearestAt reference) reference

/-- A text with constraints is what the reference is to. -/
def nearestTextAt (t : TypeDef) : Option Element :=
  match t.form with
  | .text c => if c.any then some (.ref t.name) else none
  | _ => none

/-- The first constrained text on the chain, or any string at all. -/
def nearestText (reg : Registry) (reference : String) : Except LookupError Element :=
  reg.climb (fun _ => .string) (fun t => .ok (nearestTextAt t)) reference

/-- The schema of an element that a collection refers to. -/
def element (reg : Registry) (format : IntegerFormat) (reference : String) :
    Except LookupError Element :=
  match reg.baseOf reference with
  | .error e => .error e
  | .ok base =>
    match base with
    | .string => reg.nearestText reference
    | .int8 => .ok .byte
    | .int16 | .int32 | .int64 =>
      .ok (.integer (if format = .included then some (Text.lower reference) else none))
    | _ => reg.nearest reference

/-- The schema of what a collection holds; nothing is said when it holds anything. -/
def elements (reg : Registry) (format : IntegerFormat) (reference : Option String) :
    Except LookupError (Option Element) :=
  match reference with
  | none => .ok none
  | some r => if r = anyName then .ok none else (reg.element format r).map some

/-- The schema of a field's value, by the base type of the field.  What the field itself says of
its items comes before what its type says. -/
def content (reg : Registry) (f : Field) : Except LookupError Content :=
  match reg.find f.type with
  | .error e => .error e
  | .ok declared =>
    match reg.baseOfReferent declared with
    | .error e => .error e
    | .ok base =>
      match base with
      | .array =>
        (reg.elements .omitted ((nonEmpty? f.items).or (declared.itemsAs? .array))).map .array
      | .map =>
        (reg.elements .included ((nonEmpty? f.items).or (declared.itemsAs? .map))).map .object
      | .string => (reg.nearestText f.type).map .element
      | .int8 => .ok (.element .byte)
      | .int16 | .int32 | .int64 => .ok (.element (.integer none))
      | .struct | .enum => .ok (.element (.ref f.type))
      | _ => .ok (.element (.unmapped f.type))

def property (reg : Registry) (f : Field) : Except LookupError Property :=
  (reg.content f).map fun content => { description := nonEmpty? f.comment, content }

/-- The properties of a struct: of fields of one name the last counts, in the place of the first. -/
def properties (reg : Registry) (fields : List Field) : Except LookupError (Entries Property) :=
  fields.foldlM (fun ps f => (reg.property f).map fun p => Entries.insert f.name p ps) []

/-- The names of the fields that may not be left out, each as often as it is declared. -/
def requiredNames (fields : List Field) : List String :=
  (fields.filter fun f => !f.optional).map (·.name)

/-- The body of a type's definition, if it produces one. -/
def body (reg : Registry) (t : TypeDef) : Except ConversionError (Option Body) :=
  match t.form with
  | .struct fields =>
    match reg.properties fields with
    | .error e => .error (.lookup e)
    | .ok ps => .ok (some (.struct ps (requiredNames fields)))
  | .array items =>
    match reg.baseOf t.supertype with
    | .error e => .error (.lookup e)
    | .ok base =>
      match reg.elements .included (some items) with
      | .error e => .error (.lookup e)
      | .ok element => .ok (some (.array (Text.lower base.name) element))
  | .map items =>
    match reg.elements .included (some items) with
    | .error e => .error (.lookup e)
    | .ok element => .ok (some (.object element))
  | .enum symbols => .ok (some (.enum symbols))
  | .text c =>
    .ok (if c.any then some (.text c.maxSize c.minSize (nonEmpty? c.pattern) c.values) else none)
  | .union _ => .ok none
  | .bare =>
    match reg.baseOf t.supertype with
    | .error e => .error (.lookup e)
    | .ok base =>
      if base.isNumeric || base == .string then .ok none
      else if base = .struct then .ok (some (.object none))
      else .error (.unsupported t.name base)

/-- The definition of a type, if it produces one.  A built-in type has none. -/
def define (reg : Registry) : Referent → Except ConversionError (Option Definition)
  | .builtIn b => .error (.unsupported b.name b)
  | .declared t =>
    (reg.body t).map fun body =>
      body.map fun body => { description := nonEmpty? t.comment, body }

end Registry

/-- What a reader should know about a conversion that went well. -/
inductive Diagnostic where
  | unionNotSupported (name : String)
deriving DecidableEq, Repr

def Diagnostic.message : Diagnostic → String
  | .unionNotSupported name => "[" ++ name ++ ": Unions not supported]"

/-- What converting a type has to be said about. -/
def Referent.diagnostic? : Referent → Option Diagnostic
  | .declared { name, form := .union _, .. } => some (.unionNotSupported name)
  | _ => none

/-- Conversions one after the other over one registry, with all that had to be said about them
so far. -/
structure Session where
  registry : Registry
  diagnostics : List Diagnostic := []

/-- Converts one more type. -/
def Session.convert (s : Session) (r : Referent) :
    Except ConversionError (Option Definition) × Session :=
  (s.registry.define r, { s with diagnostics := s.diagnostics ++ r.diagnostic?.toList })

end InterfaceSchema
