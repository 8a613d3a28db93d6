import InterfaceSchema.Entries
import InterfaceSchema.Files.Path

/-!
# Files — disks

A tree of directories and files, and the operations on it that writing a file takes: making a
directory, making all directories on the way to one, and creating a file or replacing its
content.  An operation walks its path name by name and stops at the first name that it cannot
pass.
-/

namespace InterfaceSchema.Files

/-- Why an operation is refused. -/
inductive OsError where
  | notFound
  | alreadyExists
  | notDirectory
  | isDirectory
  | nameTooLong
  | nulInPath
deriving DecidableEq, Repr

def OsError.message : OsError → String
  | .notFound      => "No such file or directory (os error 2)"
  | .alreadyExists => "File exists (os error 17)"
  | .notDirectory  => "Not a directory (os error 20)"
  | .isDirectory   => "Is a directory (os error 21)"
  | .nameTooLong   => "File name too long (os error 36)"
  | .nulInPath     => "file name contained an unexpected NUL byte"

/-- Where something is: the names that lead to it, the last one first. -/
abbrev Location := List String

/-- What is at a location. -/
inductive Entry where
  | directory
  | file (content : String)
deriving DecidableEq, Repr

/-- A disk and the directory that relative paths start from. -/
structure Disk where
  entries : List (Location × Entry)
  working : Location
deriving Repr

/-- The most octets in a name. -/
def maxName : Nat := 255

/-- The most octets in the text of a path. -/
def maxPath : Nat := 4095

namespace Disk

/-- A disk with nothing on it but an empty directory to work in. -/
def blank (name : String) : Disk := ⟨[([name], .directory)], [name]⟩

/-- The entry at a location; the root is a directory. -/
def at? (d : Disk) : Location → Option Entry
  | [] => some .directory
  | l => d.entries.lookup l

/-- Puts an entry at a location, in place of what is there. -/
def put (d : Disk) (l : Location) (e : Entry) : Disk :=
  if (d.entries.lookup l).isSome then
    { d with entries := d.entries.map fun p => if p.1 = l then (l, e) else p }
  else { d with entries := d.entries ++ [(l, e)] }

/-- The directory that segments lead to from a directory. -/
def walk (d : Disk) (l : Location) : List String → Except OsError Location
  | [] => .ok l
  | s :: ss =>
    if Path.isVoid s then d.walk l ss
    else if s = Path.upward then d.walk l.tail ss
    else if maxName < s.utf8ByteSize then .error .nameTooLong
    else
      match d.at? (s :: l) with
      | none => .error .notFound
      | some (.file _) => .error .notDirectory
      | some .directory => d.walk (s :: l) ss

/-- Where a path leads: to a name, which may be free, in a directory, or back to some directory. -/
inductive Goal where
  | name (location : Location)
  | directory

/-- A path that no operation takes. -/
def refused? (p : Path) : Option OsError :=
  if '\x00' ∈ p.text.toList then some .nulInPath
  else if maxPath < p.text.utf8ByteSize then some .nameTooLong
  else none

/-- The directory that a path starts from. -/
def start (d : Disk) (p : Path) : Location := if p.isAbsolute then [] else d.working

/-- Where a path leads. -/
def goal (d : Disk) (p : Path) : Except OsError Goal :=
  match refused? p with
  | some e => .error e
  | none =>
    match p.segments.reverse with
    | [] => .error .notFound
    | s :: ss =>
      match d.walk (d.start p) ss.reverse with
      | .error e => .error e
      | .ok l =>
        if Path.isVoid s ∨ s = Path.upward then .ok .directory
        else if maxName < s.utf8ByteSize then .error .nameTooLong
        else .ok (.name (s :: l))

/-- A path leads to a directory. -/
def isDirectory (d : Disk) (p : Path) : Bool :=
  match d.goal p with
  | .error _ => false
  | .ok .directory => true
  | .ok (.name l) => d.at? l == some .directory

/-- Makes a directory where nothing is. -/
def makeDirectory (d : Disk) (p : Path) : Except OsError Disk :=
  match d.goal p with
  | .error e => .error e
  | .ok .directory => .error .alreadyExists
  | .ok (.name l) =>
    match d.at? l with
    | some _ => .error .alreadyExists
    | none => .ok (d.put l .directory)

/-- Makes a directory, or finds it made. -/
def ensureDirectory (d : Disk) (p : Path) : Except OsError Disk :=
  match d.makeDirectory p with
  | .error .alreadyExists => if d.isDirectory p then .ok d else .error .alreadyExists
  | r => r

/-- Makes a directory after the missing ones above it; `ancestors` holds its path and those
above.  Directories made before a failure stay. -/
def makeDirectories (d : Disk) : (ancestors : List Path) → Except OsError Unit × Disk
  | [] | [_] => (.ok (), d)
  | p :: above =>
    match d.ensureDirectory p with
    | .ok d => (.ok (), d)
    | .error .notFound =>
      match d.makeDirectories above with
      | (.error e, d) => (.error e, d)
      | (.ok (), d) =>
        match d.ensureDirectory p with
        | .ok d => (.ok (), d)
        | .error e => (.error e, d)
    | .error e => (.error e, d)

/-- Gives a file its content, new or in place of the old. -/
def createFile (d : Disk) (p : Path) (content : String) : Except OsError Disk :=
  match d.goal p with
  | .error e => .error e
  | .ok .directory => .error .isDirectory
  | .ok (.name l) =>
    match d.at? l with
    | some .directory => .error .isDirectory
    | _ => .ok (d.put l (.file content))

/-- The texts of the files below the working directory by their paths, with its directories,
marked by a slash at the end, under which is nothing. -/
def listing (d : Disk) : Entries (Option String) :=
  d.entries.filterMap fun (l, e) =>
    if d.working.isSuffixOf l ∧ l ≠ d.working then
      let path := Path.joined (l.take (l.length - d.working.length)).reverse
      match e with
      | .directory => some (path ++ "/", none)
      | .file content => some (path, some content)
    else none

end Disk

end InterfaceSchema.Files
