import InterfaceSchema.Text.Similarity
import InterfaceSchema.Text.Terminal

/-!
# Command line

The options of the program and what is wrong with arguments that are none.  Arguments are read
from the left.  A value option takes the rest of its argument or the next argument, and is
settled, that is checked and recorded, when another known option follows or the arguments end.
-/

namespace InterfaceSchema

/-- An option that takes a value. -/
inductive ValueOption where
  | out
  | basePath
  | source
deriving DecidableEq, Repr

/-- The option as usage shows it. -/
def ValueOption.usage : ValueOption → String
  | .out      => "-o <OUT>"
  | .basePath => "-b <BASE_PATH>"
  | .source   => "-s <SOURCE>"

/-- An option. -/
inductive Switch where
  | value (o : ValueOption)
  | verbose
  | help
deriving DecidableEq, Repr

def Switch.usage : Switch → String
  | .value o => o.usage
  | .verbose => "--verbose..."
  | .help    => "--help"

/-- The options that may come along with each other: all but help. -/
def Switch.companions : List Switch := [.value .out, .value .basePath, .value .source, .verbose]

/-- A choice of these options, as usage shows it. -/
def Switch.choice : String := "<" ++ "|".intercalate (companions.map usage) ++ ">"

/-- The option of a letter. -/
def Switch.ofLetter? : Char → Option Switch
  | 'o' => some (.value .out)
  | 'b' => some (.value .basePath)
  | 's' => some (.value .source)
  | 'v' => some .verbose
  | 'h' => some .help
  | _   => none

/-- The options with a long name. -/
def Switch.long : List (String × Switch) := [("verbose", .verbose), ("help", .help)]

/-- Names that are at least this alike are taken for each other's misspellings. -/
def Switch.threshold : Text.Likeness := ⟨7, 10⟩

/-- The long name that a name resembles most, with its option. -/
def Switch.resembling? (name : String) : Option (String × Switch) :=
  let degree (l : String × Switch) := Text.likeness name.toList l.1.toList
  (Switch.long.filter fun l => !(degree l).lt threshold).foldl
    (fun best l =>
      match best with
      | some b => if (degree l).lt (degree b) then some b else some l
      | none => some l) none

/-- What the arguments ask for. -/
structure CommandLine where
  out : Option String := none
  basePath : Option String := none
  source : Option String := none
  verbosity : Nat := 0
deriving DecidableEq, Repr

/-- Why the arguments are not taken.  `used` are the options that a hint on usage shows; `others`
tells that options came before, which are then not shown one by one. -/
inductive UsageError where
  /-- Help was asked for. -/
  | help
  | unexpected (argument : String) (similar : Option String) (used : List Switch)
  | missingValue (o : ValueOption)
  | repeated (o : ValueOption)
  | unexpectedValue (value : String) (switch : Switch) (others : Bool)
deriving DecidableEq, Repr

namespace UsageError

def usageLine (shown : List String) : String :=
  "Usage: idl-json-schema " ++ if shown.isEmpty then "[OPTIONS]" else " ".intercalate shown

/-- The options to show for one that came with a value.  After others, one that may come along
with them is shown by the choice of all of these. -/
def shownWithValue (switch : Switch) (others : Bool) : List String :=
  if others then
    if switch ∈ Switch.companions then [Switch.choice] else [switch.usage, Switch.choice]
  else
    [switch.usage]

def helpHint : String := "For more information, try '--help'.\n"

def helpText : String :=
  "translate a parsed IDL schema (JSON on stdin) into a JSON Schema draft-04 document\n\n" ++
  usageLine [] ++ "\n\n" ++
  "Options:\n" ++
  "  -o <OUT>          output .json file, or a directory to write `<SchemaName>.json` into " ++
  "(stdout if omitted)\n" ++
  "  -b <BASE_PATH>    base path for generated references\n" ++
  "  -s <SOURCE>       IDL source file; ignored\n" ++
  "  -v, --verbose...  more logging on stderr (-v, -vv, -vvv)\n" ++
  "  -h, --help        Print help\n"

/-- The message.  What it repeats of the arguments is cut down to what prints. -/
def message : UsageError → String
  | .help => helpText
  | .unexpected argument similar used =>
    let tip :=
      match similar with
      | none => ""
      | some name => "\n\n  tip: a similar argument exists: '--" ++ name ++ "'"
    "error: unexpected argument '" ++ Text.Terminal.printed argument ++ "' found" ++ tip ++
      "\n\n" ++ usageLine (used.map (·.usage)) ++ "\n\n" ++ helpHint
  | .missingValue o =>
    "error: a value is required for '" ++ o.usage ++ "' but none was supplied\n\n" ++ helpHint
  | .repeated o =>
    "error: the argument '" ++ o.usage ++ "' cannot be used multiple times\n\n" ++
      usageLine [] ++ "\n\n" ++ helpHint
  | .unexpectedValue value switch others =>
    "error: unexpected value '" ++ Text.Terminal.printed value ++ "' for '" ++ switch.usage ++
      "' found; no more were expected\n\n" ++ usageLine (shownWithValue switch others) ++
      "\n\n" ++ helpHint

end UsageError

namespace CommandLine

/-- The largest verbosity. -/
def maxVerbosity : Nat := 255

def set (c : CommandLine) : ValueOption → String → CommandLine
  | .out,      v => { c with out := some v }
  | .basePath, v => { c with basePath := some v }
  | .source,   v => { c with source := some v }

/-- The arguments read so far. -/
structure Scan where
  command : CommandLine := {}
  /-- The options recorded, in order. -/
  used : List Switch := []
  /-- The value option that is not settled yet, with its value if that has come. -/
  pending : Option (ValueOption × Option String) := none

namespace Scan

/-- Records the value of an option, which may come once; a place to write to may not be empty. -/
def record (s : Scan) (o : ValueOption) (v : String) : Except UsageError Scan :=
  if .value o ∈ s.used then .error (.repeated o)
  else if o = .out ∧ v = "" then .error (.missingValue o)
  else .ok { s with command := s.command.set o v, used := s.used ++ [.value o] }

/-- Settles the option before. -/
def settle (s : Scan) : Except UsageError Scan :=
  match s.pending with
  | none => .ok s
  | some (o, none) => .error (.missingValue o)
  | some (o, some v) => { s with pending := none }.record o v

/-- The options to show once the option before is settled, well or not. -/
def usedSettled (s : Scan) : List Switch :=
  match s.pending with
  | some (o, some _) =>
    if .value o ∈ s.used then s.used.erase (.value o) else s.used ++ [.value o]
  | _ => s.used

/-- Options with one more, once. -/
def withSwitch (used : List Switch) (w : Switch) : List Switch :=
  if w ∈ used then used else used ++ [w]

/-- An option without a value. -/
def plain (s : Scan) (w : Switch) : Except UsageError Scan :=
  s.settle.bind fun s =>
    match w with
    | .verbose =>
      let verbosity := min maxVerbosity (s.command.verbosity + 1)
      .ok { s with
        command := { s.command with verbosity }
        used := s.used.erase .verbose ++ [.verbose] }
    | _ => .error .help

/-- The letters of an argument after its dash.  Behind a value option the rest is its value,
with or without an equals sign before it. -/
def letters (s : Scan) : List Char → Except UsageError Scan
  | [] => .ok s
  | c :: cs =>
    match Switch.ofLetter? c with
    | none => .error (.unexpected (.ofList ['-', c]) none [])
    | some (.value o) =>
      s.settle.bind fun s =>
        match cs with
        | []        => .ok { s with pending := some (o, none) }
        | '=' :: cs => s.record o (.ofList cs)
        | cs        => s.record o (.ofList cs)
    | some w => (s.plain w).bind fun s => s.letters cs

/-- An argument with two dashes before it: a name, perhaps with a value after an equals sign. -/
def long (s : Scan) (cs : List Char) : Except UsageError Scan :=
  let name := String.ofList (cs.takeWhile (· ≠ '='))
  match Switch.long.lookup name, cs.dropWhile (· ≠ '=') with
  | some w, [] => s.plain w
  | some w, _ :: value => .error (.unexpectedValue (.ofList value) w !s.used.isEmpty)
  | none, _ =>
    match Switch.resembling? name with
    | none => .error (.unexpected ("--" ++ name) none s.usedSettled)
    | some (similar, w) =>
      .error (.unexpected ("--" ++ name) (some similar) (withSwitch s.usedSettled w))

/-- An argument that is no option: the value that is waited for, or nothing that is expected. -/
def word (s : Scan) (arg : String) : Except UsageError Scan :=
  match s.pending with
  | some (o, none) => .ok { s with pending := some (o, some arg) }
  | _ => .error (.unexpected arg none [])

/-- Reads the arguments.  After a double dash nothing is expected any more. -/
def arguments (s : Scan) : List String → Except UsageError CommandLine
  | [] => s.settle.map (·.command)
  | arg :: args =>
    match arg.toList with
    | ['-', '-'] =>
      match args with
      | [] => s.settle.map (·.command)
      | arg :: _ => .error (.unexpected arg none [])
    | '-' :: '-' :: cs => (s.long cs).bind fun s => s.arguments args
    | '-' :: c :: cs => (s.letters (c :: cs)).bind fun s => s.arguments args
    | _ => (s.word arg).bind fun s => s.arguments args

end Scan

/-- What the arguments of the program ask for. -/
def ofArguments (args : List String) : Except UsageError CommandLine := ({} : Scan).arguments args

end CommandLine

end InterfaceSchema
