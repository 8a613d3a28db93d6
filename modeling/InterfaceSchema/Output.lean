import InterfaceSchema.Files.Disk
import InterfaceSchema.Text.NonEmpty
import InterfaceSchema.Text.Quoted

/-!
# Output

Where a rendered document goes: to standard output, to the very file that was asked for, or to a
file named after the schema in the directory that was asked for.
-/

namespace InterfaceSchema

open Files (Path Disk OsError)

/-- Where a document goes. -/
inductive Target where
  | stdout
  | file (path : Path)
deriving DecidableEq, Repr

/-- The target as log lines show it. -/
def Target.text : Target → String
  | .stdout => "Stdout"
  | .file p => "File(" ++ Text.quoted p.text ++ ")"

/-- The end of the names of documents. -/
def suffix : String := ".json"

/-- The file of a schema in a directory; a schema without a name is anonymous. -/
def fileName (schema : String) : String := (if schema = "" then "anonymous" else schema) ++ suffix

/-- The target for what was asked for, if anything was. -/
def Target.resolve (out : Option String) (schema : String) : Target :=
  match nonEmpty? out with
  | none => .stdout
  | some out =>
    if suffix.toList.isSuffixOf out.toList then .file ⟨out⟩
    else .file (Path.join ⟨out⟩ ⟨fileName schema⟩)

/-- What could not be created, and why. -/
structure WriteError where
  path : Path
  cause : OsError
deriving DecidableEq, Repr

def WriteError.message (e : WriteError) : String :=
  "failed to create " ++ e.path.text ++ ": " ++ e.cause.message

/-- The directory to make before a file can be created. -/
def directoryFor? (p : Path) : Option Path := p.parent?.filter (·.text ≠ "")

/-- Writes a file after making the directories on its path.  The disk is changed as far as the
writing went. -/
def writeFile (d : Disk) (p : Path) (content : String) : Except WriteError Unit × Disk :=
  let create (d : Disk) : Except WriteError Unit × Disk :=
    match d.createFile p content with
    | .ok d => (.ok (), d)
    | .error e => (.error ⟨p, e⟩, d)
  match directoryFor? p with
  | none => create d
  | some q =>
    match d.makeDirectories q.ancestors with
    | (.error e, d) => (.error ⟨q, e⟩, d)
    | (.ok (), d) => create d

end InterfaceSchema
