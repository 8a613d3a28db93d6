/-!
# Files — paths

A path is a text cut into segments by slashes.  Empty segments and points mean nothing except
where a path begins: with a slash it starts from the root, and a point there stands for the
working directory.
-/

namespace InterfaceSchema.Files

/-- A path, as it is written. -/
structure Path where
  text : String
deriving DecidableEq, Repr

namespace Path

/-- The texts between the slashes. -/
def segments (p : Path) : List String := (p.text.toList.splitOn '/').map .ofList

def isAbsolute (p : Path) : Bool := p.text.toList.head? == some '/'

/-- A segment that leads nowhere. -/
def isVoid (segment : String) : Bool := segment == "" || segment == "."

/-- The segment that leads one level up. -/
def upward : String := ".."

/-- One step of a path, once its spelling is put aside. -/
inductive Component where
  | root
  | current
  | up
  | name (name : String)
deriving DecidableEq, Repr

/-- What a segment means inside a path. -/
def component? (segment : String) : Option Component :=
  if isVoid segment then none else if segment = upward then some .up else some (.name segment)

/-- How a path begins. -/
inductive Anchor where
  | root
  | current
  | none
deriving DecidableEq, Repr

/-- The beginning of a path, and the segments after it. -/
def split (p : Path) : Anchor × List String :=
  match p.segments with
  | "." :: ss => (.current, ss)
  | s :: ss => if p.isAbsolute then (.root, ss) else (.none, s :: ss)
  | [] => (.none, [])

/-- The steps of a path. -/
def components (p : Path) : List Component :=
  let (anchor, ss) := p.split
  (match anchor with
    | .root => [.root]
    | .current => [.current]
    | .none => []) ++ ss.filterMap component?

/-- Segments with slashes between them. -/
def joined (ss : List String) : String := "/".intercalate ss

/-- The path of a beginning and the segments after it. -/
def ofSplit (anchor : Anchor) (ss : List String) : Path :=
  match anchor with
  | .root => ⟨"/" ++ joined ss⟩
  | .current => ⟨joined ("." :: ss)⟩
  | .none => ⟨joined ss⟩

/-- A path cut back step by step, `reversed` being its segments from the last to the first. -/
def ancestorsOf (anchor : Anchor) : (reversed : List String) → List Path
  | [] =>
    match anchor with
    | .root => [⟨"/"⟩]
    | .current => [⟨"."⟩, ⟨""⟩]
    | .none => [⟨""⟩]
  | s :: ss =>
    if isVoid s then ancestorsOf anchor ss
    else ofSplit anchor (s :: ss).reverse :: ancestorsOf anchor ss

/-- The path itself, without any void segments at its end, then the path of its directory, and
so on up to the root or to the empty path. -/
def ancestors (p : Path) : List Path := ancestorsOf p.split.1 p.split.2.reverse

/-- The path of the directory that holds what the path leads to. -/
def parent? (p : Path) : Option Path := p.ancestors[1]?

/-- A path that starts from where another one leads; an absolute path stands for itself. -/
def join (p q : Path) : Path :=
  if q.isAbsolute then q
  else if p.text = "" ∨ p.text.toList.getLast? = some '/' then ⟨p.text ++ q.text⟩
  else ⟨p.text ++ "/" ++ q.text⟩

end Path

end InterfaceSchema.Files
