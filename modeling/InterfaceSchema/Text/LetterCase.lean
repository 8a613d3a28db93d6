import InterfaceSchema.Text.LetterCase.Table

/-!
# Text — letter case

The small-letter form of a text.  Every capital goes to its small letter; the dotted capital I
goes to an i and a dot; a capital sigma goes to the final sigma when it ends a word: some cased
letter stands before it and none after it, looking through the characters that do not interrupt
a word.
-/

namespace InterfaceSchema.Text

def isCased (c : Char) : Bool := casedRanges.has c.toNat

def isCaseIgnorable (c : Char) : Bool := caseIgnorableRanges.has c.toNat

/-- The small letter of a capital in the run, `none` outside it. -/
def CapitalRun.small? (r : CapitalRun) (n : Nat) : Option Char :=
  if r.first ≤ n ∧ n ≤ r.last ∧ (n - r.first) % r.step = 0 then
    some (.ofNat (n + r.distance).toNat)
  else
    none

/-- The small form of a character taken alone: itself unless it is a capital. -/
def smallForm (c : Char) : List Char :=
  if c = '\u0130' then ['i', '\u0307']
  else [(capitalRuns.findSome? (·.small? c.toNat)).getD c]

/-- The nearest character that does not let a word's case look through it is a cased one. -/
def meetsCased (cs : List Char) : Bool :=
  match cs.dropWhile isCaseIgnorable with
  | [] => false
  | c :: _ => isCased c

/-- The small form of `cs`, which stands after the characters `before` (nearest first). -/
def lowerAfter (before : List Char) : List Char → List Char
  | [] => []
  | c :: cs =>
    (if c = 'Σ' then [if meetsCased before && !meetsCased cs then 'ς' else 'σ'] else smallForm c)
      ++ lowerAfter (c :: before) cs

/-- The small-letter form of a text. -/
def lower (s : String) : String := .ofList (lowerAfter [] s.toList)

end InterfaceSchema.Text
