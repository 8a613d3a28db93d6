import InterfaceSchema.Program

/-!
# Main

The program on a real system: the arguments and standard input go into the plan, whose notices
and delivery then happen.
-/

open InterfaceSchema

namespace InterfaceSchema.Main

/-- What the system says about a failed operation. -/
def systemText : IO.Error → String
  | .alreadyExists _ code details
  | .noFileOrDirectory _ code details
  | .inappropriateType _ code details
  | .permissionDenied _ code details
  | .invalidArgument _ code details
  | .resourceExhausted _ code details
  | .otherError code details => details ++ " (os error " ++ toString code ++ ")"
  | e => toString e

/-- All of standard input, and the reason why it broke off, if it did. -/
def readInput : IO Stream := do
  let read : IO ByteArray := do (← IO.getStdin).readBinToEnd
  try
    return { delivered := (← read).toList }
  catch e =>
    return { delivered := [], failure := some (systemText e) }

/-- Makes the directories for a file and writes it; the message of what could not be done. -/
def save (path : Files.Path) (text : String) : IO (Option String) := do
  let attempt (p : Files.Path) (act : IO Unit) : IO (Option String) := do
    if let some e := Files.Disk.refused? p then
      return some (WriteError.message ⟨p, e⟩)
    try
      act
      return none
    catch e =>
      return some ("failed to create " ++ p.text ++ ": " ++ systemText e)
  if let some q := directoryFor? path then
    if let some message ← attempt q (IO.FS.createDirAll q.text) then
      return some message
  attempt path (IO.FS.writeFile path.text text)

/-- Lets a plan happen. -/
def carryOut (p : Plan) : IO UInt32 := do
  for notice in p.notices do
    IO.eprint notice.text
  let code : UInt32 := if p.succeeds then 0 else 1
  match p.delivery with
  | .nothing => return code
  | .print text =>
    IO.print text
    (← IO.getStdout).flush
    return code
  | .save path text =>
    match ← save path text with
    | none => return code
    | some message =>
      IO.eprint ("*** " ++ message ++ "\n")
      return 1

end InterfaceSchema.Main

def main (args : List String) : IO UInt32 := do
  match CommandLine.ofArguments args with
  | .error e => Main.carryOut (.ofUsageError e)
  | .ok c => Main.carryOut (.ofCommandLine c (← Main.readInput))
