import InterfaceSchema.CommandLine
import InterfaceSchema.Document
import InterfaceSchema.Idl.Input
import InterfaceSchema.Log

/-!
# Program

A run of the program: read a schema, convert it, tell the diagnostics, and only then deliver the
document.  A plan is made from the command line and the input alone; carrying it out on a disk
gives the outcome.  Options on logging, on the base path and on the source decide nothing but
the log.
-/

namespace InterfaceSchema

open Files (Path Disk)

/-- Why a run fails, given that its arguments are fine. -/
inductive Failure where
  | input (e : InputError)
  | conversion (schema : String) (e : ConversionError)
  | output (e : WriteError)
deriving DecidableEq, Repr

/-- The failure, followed by its cause where that is told apart. -/
def Failure.message : Failure → String
  | .input (.unreadable reason) => (InputError.unreadable reason).message ++ ": " ++ reason
  | .input (.invalid e) => (InputError.invalid e).message ++ ": " ++ e.detail
  | .conversion schema e => "failed to translate schema `" ++ schema ++ "`: " ++ e.message
  | .output e => e.message

/-- Something on standard error. -/
inductive Notice where
  | log (e : Event)
  | diagnostic (d : Diagnostic)
  | usage (e : UsageError)
  | failure (f : Failure)
deriving DecidableEq, Repr

/-- The lines of a notice. -/
def Notice.text : Notice → String
  | .log e        => e.level.text ++ " " ++ e.text ++ "\n"
  | .diagnostic d => d.message ++ "\n"
  | .usage e      => "*** " ++ e.message
  | .failure f    => "*** " ++ f.message ++ "\n"

/-- What is left to do once all has been worked out. -/
inductive Delivery where
  | nothing
  | print (text : String)
  | save (path : Path) (text : String)
deriving DecidableEq, Repr

/-- The delivery of a text to a target. -/
def Delivery.ofTarget (text : String) : Target → Delivery
  | .stdout => .print text
  | .file p => .save p text

/-- What a run tells, and what it then delivers. -/
structure Plan where
  succeeds : Bool
  notices : List Notice
  delivery : Delivery
deriving DecidableEq, Repr

/-- Those of some events that a command line asks for. -/
def CommandLine.log (c : CommandLine) (es : List Event) : List Notice :=
  (es.filter (·.shownAt (Level.ofVerbosity c.verbosity))).map .log

namespace Plan

/-- Arguments that are not taken: help goes to standard output, all else is a failure. -/
def ofUsageError : UsageError → Plan
  | .help => ⟨true, [], .print UsageError.help.message⟩
  | e => ⟨false, [.usage e], .nothing⟩

/-- A run that fails before anything is delivered. -/
def failed (notices : List Notice) (f : Failure) : Plan :=
  ⟨false, notices ++ [.failure f], .nothing⟩

/-- The run for a command line on an input. -/
def ofCommandLine (c : CommandLine) (input : Stream) : Plan :=
  let source := c.log (c.source.toList.map .sourceIgnored)
  match Schema.ofStream input with
  | .error e => failed source (.input e)
  | .ok schema =>
    let converting := source ++ c.log (c.basePath.toList.map .basePathAccepted ++
      (Registry.ofSchema schema).events schema.types)
    match Document.ofSchema schema with
    | .error e => failed converting (.conversion schema.name e)
    | .ok document =>
      let text := document.render
      let target := Target.resolve c.out schema.name
      { succeeds := true
        notices := converting ++ c.log [.converted schema.name schema.types.length] ++
          document.diagnostics.map .diagnostic ++ c.log [.writing target text.utf8ByteSize]
        delivery := .ofTarget text target }

/-- The run for some arguments on an input. -/
def ofArguments (args : List String) (input : Stream) : Plan :=
  match CommandLine.ofArguments args with
  | .error e => ofUsageError e
  | .ok c => ofCommandLine c input

end Plan

/-- What a run comes to. -/
structure Outcome where
  exitCode : Nat
  stdout : String
  stderr : List Notice
  disk : Disk

/-- Carries a plan out on a disk. -/
def Plan.carryOut (p : Plan) (disk : Disk) : Outcome :=
  let exitCode := if p.succeeds then 0 else 1
  match p.delivery with
  | .nothing => ⟨exitCode, "", p.notices, disk⟩
  | .print text => ⟨exitCode, text, p.notices, disk⟩
  | .save path text =>
    match writeFile disk path text with
    | (.ok (), disk) => ⟨exitCode, "", p.notices, disk⟩
    | (.error e, disk) => ⟨1, "", p.notices ++ [.failure (.output e)], disk⟩

/-- A run of the program on a disk. -/
def runProgram (args : List String) (input : Stream) (disk : Disk) : Outcome :=
  (Plan.ofArguments args input).carryOut disk

/-- All of standard error. -/
def Outcome.stderrText (o : Outcome) : String := String.join (o.stderr.map (·.text))

end InterfaceSchema
