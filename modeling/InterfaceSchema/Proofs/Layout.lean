import Mathlib.Data.List.DropRight
import InterfaceSchema.Proofs.Tokens

/-!
# JSON values and their texts

What a text says is apart from how it is laid out: which blanks stand between its tokens, and how
its literals and numbers are spelled.  A `Tree` is what is left of a value without its layout, and
`Tree.after?` tells whether a text starts with a value, and what follows it.  Members of objects
keep their order, and keys may stand more than once.  A literal or a number need only be such that
it can be passed over; what a reader makes of it is part of the tree.

* `Tree.scan_of_after?`: a value is passed over to what follows it.
-/

namespace InterfaceSchema.Json

open InterfaceSchema.Text (Bytes)

instance exceptDecidableEq {ε α : Type} [DecidableEq ε] [DecidableEq α] :
    DecidableEq (Except ε α)
  | .ok a, .ok b       => decidable_of_iff (a = b) (by simp)
  | .error e, .error f => decidable_of_iff (e = f) (by simp)
  | .ok _, .error _    => isFalse (by simp)
  | .error _, .ok _    => isFalse (by simp)

/-- What is wrong with a value, and in which part of it. -/
structure Flaw where
  path : Path
  cause : Cause
deriving DecidableEq, Repr

/-- The flaw seen from the value that `step` leads into from. -/
def Flaw.within (step : Step) (f : Flaw) : Flaw := { f with path := step :: f.path }

/-- A fault apart from its place in the text. -/
def Fault.flaw (f : Fault) : Flaw := ⟨f.path, f.cause⟩

/-- What reading comes to, apart from places in the text. -/
def Outcome.verdict {α : Type} : Outcome α → Except Flaw α
  | .ok (a, _) => .ok a
  | .error f   => .error f.flaw

/-- A value as it stands in a text, apart from its layout. -/
inductive Tree where
  | scalar (reading : Except Flaw Token)
  | list (items : List Tree)
  | object (members : List (Except Flaw String × Tree))

namespace Tree

/-- What follows a quotation mark that comes next. -/
def quoteAt? (s : Bytes) : Option Bytes :=
  match skipBlanks s with
  | [] => none
  | b :: r => if glyph b = '"' then some r else none

/-- What follows the quotation mark that opens the next key of an object. -/
def keyAt? (first : Bool) (s : Bytes) : Option Bytes :=
  if first then quoteAt? s
  else
    match skipBlanks s with
    | [] => none
    | b :: r => if glyph b = ',' then quoteAt? r else none

/-- What follows a key and its colon, after the quotation mark that opens the key. -/
def afterKey? (key : Except Flaw String) (s : Bytes) : Option Bytes :=
  match Literal.skip s with
  | .error _ => none
  | .ok r => if (Literal.read s).verdict = key then (Reader.readColon r).toOption else none

mutual

/-- What follows the value, if the text starts with it. -/
def after? : Tree → Bytes → Option Bytes
  | .scalar reading, s =>
    match skipBlanks s with
    | [] => none
    | b :: r =>
      if (Token.read s).verdict = reading then (Skipping.scalar b r).toOption else none
  | .list vs, s =>
    match skipBlanks s with
    | [] => none
    | b :: r => if glyph b = '[' then afterItems? true vs r else none
  | .object ms, s =>
    match skipBlanks s with
    | [] => none
    | b :: r => if glyph b = '\x7b' then afterMembers? true ms r else none

/-- What follows the closing bracket of a list, before which the items stand. -/
def afterItems? (first : Bool) : List Tree → Bytes → Option Bytes
  | [], s =>
    match Reader.nextItem first s with
    | .ok (.done r) => some r
    | _ => none
  | v :: vs, s =>
    match Reader.nextItem first s with
    | .ok (.more () r) =>
      match v.after? r with
      | some r => afterItems? false vs r
      | none => none
    | _ => none

/-- What follows the closing bracket of an object, before which the members stand. -/
def afterMembers? (first : Bool) : List (Except Flaw String × Tree) → Bytes → Option Bytes
  | [], s =>
    match Reader.nextKey first s with
    | .ok (.done r) => some r
    | _ => none
  | (key, v) :: ms, s =>
    match (keyAt? first s).bind (afterKey? key) with
    | some r =>
      match v.after? r with
      | some r => afterMembers? false ms r
      | none => none
    | none => none

end

theorem quoteAt?_eq_some_iff {s r : Bytes} :
    quoteAt? s = some r ↔ ∃ b, skipBlanks s = b :: r ∧ glyph b = '"' := by
  rw [quoteAt?]
  cases skipBlanks s with
  | nil => simp
  | cons b s => by_cases hb : glyph b = '"' <;> aesop

end Tree

/-! ### Steps of a scan -/

theorem skipBlanks_skipBlanks (s : Bytes) : skipBlanks (skipBlanks s) = skipBlanks s :=
  List.dropWhile_idempotent isBlank s

/-- Where blanks end, none are in front. -/
theorem skipBlanks_of_eq {s r : Bytes} {b : UInt8} (h : skipBlanks s = b :: r) :
    skipBlanks (b :: r) = b :: r := by
  rw [← h, skipBlanks_skipBlanks]

namespace Skipping

variable {stack : List Bracket} {s r : Bytes} {b : UInt8}

/-- Where a value is to come, a scan goes by the first octet after the blanks. -/
theorem scan_value (h : skipBlanks s = b :: r) :
    scan .value stack s =
      if glyph b = '[' then scan (.opened .list) stack r
      else if glyph b = '\x7b' then scan (.opened .object) stack r
      else
        match scalar b r with
        | .error f => .error f
        | .ok r => scan .passed stack r := by
  conv_lhs => rw [scan]
  split
  · next h' => rw [h] at h'; cases h'
  · next h' =>
      rw [h] at h'
      cases h'
      split
      · rfl
      · split
        · rfl
        · split <;> simp_all

/-- After an opening bracket a scan goes on to the closing one or to the first part. -/
theorem scan_opened (bracket : Bracket) (h : skipBlanks s = b :: r) :
    scan (.opened bracket) stack s =
      if glyph b = closing bracket then scan .passed stack r
      else
        match bracket with
        | .list => scan .value (.list :: stack) (b :: r)
        | .object =>
          match key (b :: r) with
          | .error f => .error f
          | .ok r => scan .value (.object :: stack) r := by
  conv_lhs => rw [scan]
  split
  · next h' => rw [h] at h'; cases h'
  · next h' =>
      rw [h] at h'
      cases h'
      split
      · rfl
      · cases bracket with
        | list => rfl
        | object => simp only; split <;> simp_all

/-- After a part a scan goes on to the next one behind a comma, or to the closing bracket. -/
theorem scan_passed (bracket : Bracket) (h : skipBlanks s = b :: r) :
    scan .passed (bracket :: stack) s =
      if glyph b = ',' then
        match bracket with
        | .list => scan .value (.list :: stack) r
        | .object =>
          match key r with
          | .error f => .error f
          | .ok r => scan .value (.object :: stack) r
      else if glyph b = closing bracket then scan .passed stack r
      else .error (.past (.endExpected bracket) (b :: r)) := by
  conv_lhs => rw [scan]
  split
  · next h' => rw [h] at h'; cases h'
  · next h' =>
      rw [h] at h'
      cases h'
      split
      · cases bracket with
        | list => rfl
        | object => simp only; split <;> simp_all
      · rfl

/-- No scalar starts with a bracket or with a comma. -/
theorem glyph_of_scalar {r' : Bytes} (h : scalar b r = .ok r') :
    glyph b ≠ '[' ∧ glyph b ≠ '\x7b' ∧ glyph b ≠ ',' ∧ glyph b ≠ ']' := by
  refine ⟨?_, ?_, ?_, ?_⟩ <;>
  · intro hb
    rw [scalar, hb] at h
    simp [isDigit, hb] at h

/-- Blanks before a value are passed over with it. -/
theorem scan_value_of_eq (h : skipBlanks s = b :: r) :
    scan .value stack (b :: r) = scan .value stack s := by
  rw [scan_value (skipBlanks_of_eq h), scan_value h]

end Skipping

/-! ### Parts of lists and objects -/

namespace Reader
variable {first : Bool} {s rest : Bytes}

/-- A list is done at its closing bracket. -/
theorem nextItem_eq_done (h : nextItem first s = .ok (.done rest)) :
    ∃ b, skipBlanks s = b :: rest ∧ glyph b = ']' := by
  unfold nextItem at h
  split at h
  · cases h
  · next b r hs =>
      split at h
      · next hb => cases h; exact ⟨b, hs, hb⟩
      · split at h
        · cases h
        · split at h
          · split at h
            · cases h
            · split at h <;> cases h
          · cases h

/-- A list goes on where its bracket does not close, after the first item behind a comma. -/
theorem nextItem_eq_more (h : nextItem first s = .ok (.more () rest)) :
    ∃ b r, skipBlanks s = b :: r ∧ glyph b ≠ ']' ∧
      if first then rest = b :: r
      else glyph b = ',' ∧ skipBlanks r = rest ∧ ∃ b' r', rest = b' :: r' ∧ glyph b' ≠ ']' := by
  unfold nextItem at h
  split at h
  · cases h
  · next b r hs =>
      split at h
      · cases h
      · next hb =>
          refine ⟨b, r, hs, hb, ?_⟩
          split at h
          · next hfirst => cases h; simp [hfirst]
          · next hfirst =>
              split at h
              · next hcomma =>
                  split at h
                  · cases h
                  · next b' r' hr =>
                      split at h
                      · cases h
                      · next hb' =>
                          cases h
                          simp only [hfirst]
                          exact ⟨hcomma, hr, b', r', rfl, hb'⟩
              · cases h

end Reader

/-- A scan before the next part of a bracket, which may be the first. -/
def Skipping.scanPart (first : Bool) (bracket : Bracket) (stack : List Bracket) (s : Bytes) :
    Except Fault Bytes :=
  if first then scan (.opened bracket) stack s else scan .passed (bracket :: stack) s

namespace Skipping

variable {first : Bool} {stack : List Bracket} {s r : Bytes}

theorem scanPart_of_nextItem_done (h : Reader.nextItem first s = .ok (.done r)) :
    scanPart first .list stack s = scan .passed stack r := by
  obtain ⟨b, hs, hb⟩ := Reader.nextItem_eq_done h
  cases first with
  | true => simp [scanPart, scan_opened .list hs, closing, hb]
  | false => simp [scanPart, scan_passed .list hs, closing, hb]

/-- Where a reader goes on to an item, a scan goes on to a value. -/
theorem scanPart_of_nextItem_more (h : Reader.nextItem first s = .ok (.more () r)) :
    scanPart first .list stack s = scan .value (.list :: stack) r := by
  obtain ⟨b, r', hs, hb, hr⟩ := Reader.nextItem_eq_more h
  cases first with
  | true =>
      obtain rfl : r = b :: r' := hr
      simp [scanPart, scan_opened .list hs, closing, hb]
  | false =>
      obtain ⟨hcomma, hs', b', r'', rfl, -⟩ : glyph b = ',' ∧ skipBlanks r' = r ∧
          ∃ b' r'', r = b' :: r'' ∧ glyph b' ≠ ']' := hr
      simp [scanPart, scan_passed .list hs, hcomma, scan_value_of_eq hs']

/-- Where a reader is done with an object, so is a scan. -/
theorem scanPart_of_nextKey_done (h : Reader.nextKey first s = .ok (.done r)) :
    scanPart first .object stack s = scan .passed stack r := by
  simp only [Reader.nextKey] at h
  split at h
  · cases h
  · next b r' hs =>
      split at h
      · next hb =>
          cases h
          cases first with
          | true => simp [scanPart, scan_opened .object hs, closing, hb]
          | false => simp [scanPart, scan_passed .object hs, closing, hb]
      · -- else there is a fault or a key
        split at h
        · split at h
          · split at h <;> cases h
          · cases h
        · split at h
          · split at h
            · cases h
            · split at h
              · split at h <;> cases h
              · split at h <;> cases h
          · cases h

/-- A key is its literal and the colon after it. -/
theorem key_of_quoteAt? (h : Tree.quoteAt? s = some r) :
    key s =
      match Literal.skip r with
      | .error f => .error f
      | .ok r => Reader.readColon r := by
  obtain ⟨b, hs, hb⟩ := Tree.quoteAt?_eq_some_iff.1 h
  cases hskip : Literal.skip r <;> simp only [key, hs, hb, if_true, hskip]

/-- Before a key the scan goes over it. -/
theorem scanPart_of_keyAt? (h : Tree.keyAt? first s = some r) :
    scanPart first .object stack s =
      match Literal.skip r with
      | .error f => .error f
      | .ok r =>
        match Reader.readColon r with
        | .error f => .error f
        | .ok r => scan .value (.object :: stack) r := by
  unfold Tree.keyAt? at h
  split at h
  · next hfirst =>
      obtain ⟨b, hs, hb⟩ := Tree.quoteAt?_eq_some_iff.1 h
      have hagain : Tree.quoteAt? (b :: r) = some r :=
        Tree.quoteAt?_eq_some_iff.2 ⟨b, skipBlanks_of_eq hs, hb⟩
      rw [scanPart, if_pos hfirst, scan_opened .object hs, hb, if_neg (by decide)]
      simp only [key_of_quoteAt? hagain]
      cases Literal.skip r <;> rfl
  · next hfirst =>
      split at h
      · cases h
      · next b r' hs =>
          split at h
          · next hb =>
              rw [scanPart, if_neg hfirst, scan_passed .object hs, if_pos hb]
              simp only [key_of_quoteAt? h]
              cases Literal.skip r <;> rfl
          · cases h

end Skipping

/-! ### Values -/

namespace Tree

open Skipping (scan scanPart)

/-- A value starts at what is no blank, and not where a list ends or goes on. -/
theorem exists_skipBlanks_of_after? {v : Tree} {s rest : Bytes} (h : v.after? s = some rest) :
    ∃ b r, skipBlanks s = b :: r ∧ glyph b ≠ ']' ∧ glyph b ≠ ',' ∧
      v.after? (b :: r) = some rest := by
  cases v with
  | scalar reading =>
      rw [after?] at h
      split at h
      · cases h
      · next b r hs =>
          have hread : Token.read (b :: r) = Token.read s := by
            simp only [Token.read, hs, skipBlanks_of_eq hs]
          have hafter : (scalar reading).after? (b :: r) = some rest := by
            rw [after?, skipBlanks_of_eq hs, hread]
            exact h
          split at h
          · cases hscalar : Skipping.scalar b r with
            | error f => rw [hscalar] at h; cases h
            | ok r' =>
                obtain ⟨-, -, hcomma, hclose⟩ := Skipping.glyph_of_scalar hscalar
                exact ⟨b, r, hs, hclose, hcomma, hafter⟩
          · cases h
  | list vs | object ms =>
      rw [after?] at h
      split at h
      · cases h
      · next b r hs =>
          refine ⟨b, r, hs, ?_, ?_, by rw [after?, skipBlanks_of_eq hs]; exact h⟩ <;>
          · split at h
            · next hb => rw [hb]; decide
            · cases h

/-- A key is passed over as a literal, and is what a reader makes of it. -/
theorem afterKey?_eq_some_iff {key : Except Flaw String} {s r : Bytes} :
    afterKey? key s = some r ↔
      ∃ s', Literal.skip s = .ok s' ∧ (Literal.read s).verdict = key ∧
        Reader.readColon s' = .ok r := by
  rw [afterKey?]
  cases Literal.skip s with
  | error f => simp
  | ok s' =>
      by_cases hkey : (Literal.read s).verdict = key
      · cases h : Reader.readColon s' <;> simp [hkey, h, Except.toOption]
      · simp [hkey]

/-- After a key a scan goes on to its value. -/
theorem scanPart_of_afterKey? {first : Bool} {key : Except Flaw String} {stack : List Bracket}
    {s r : Bytes} (h : (keyAt? first s).bind (afterKey? key) = some r) :
    scanPart first .object stack s = scan .value (.object :: stack) r := by
  obtain ⟨s', hs, h⟩ := Option.bind_eq_some_iff.1 h
  obtain ⟨s'', hskip, -, hcolon⟩ := afterKey?_eq_some_iff.1 h
  rw [Skipping.scanPart_of_keyAt? hs, hskip]
  simp only [hcolon]

mutual

/-- **A value is passed over to what follows it**, whatever brackets are open around it. -/
theorem scan_of_after? {stack : List Bracket} : ∀ {v : Tree} {s r : Bytes}, v.after? s = some r →
    scan .value stack s = scan .passed stack r
  | .scalar reading, s, r, h => by
      rw [after?] at h
      split at h
      · cases h
      · next b s' hs =>
          split at h
          · cases hscalar : Skipping.scalar b s' with
            | error f => rw [hscalar] at h; cases h
            | ok r' =>
                rw [hscalar] at h
                cases h
                obtain ⟨hlist, hobject, -⟩ := Skipping.glyph_of_scalar hscalar
                rw [Skipping.scan_value hs, if_neg hlist, if_neg hobject, hscalar]
          · cases h
  | .list vs, s, r, h => by
      rw [after?] at h
      split at h
      · cases h
      · next b s' hs =>
          split at h
          · next hb =>
              rw [Skipping.scan_value hs, if_pos hb]
              exact scan_of_afterItems? h
          · cases h
  | .object ms, s, r, h => by
      rw [after?] at h
      split at h
      · cases h
      · next b s' hs =>
          split at h
          · next hb =>
              rw [Skipping.scan_value hs, hb, if_neg (by decide), if_pos rfl]
              exact scan_of_afterMembers? h
          · cases h

theorem scan_of_afterItems? {stack : List Bracket} : ∀ {first : Bool} {vs : List Tree}
    {s r : Bytes}, afterItems? first vs s = some r →
    scanPart first .list stack s = scan .passed stack r
  | first, [], s, r, h => by
      rw [afterItems?] at h
      split at h
      · next hn =>
          cases h
          exact Skipping.scanPart_of_nextItem_done hn
      · cases h
  | first, v :: vs, s, r, h => by
      rw [afterItems?] at h
      split at h
      · next r' hn =>
          split at h
          · next r'' hv =>
              rw [Skipping.scanPart_of_nextItem_more hn, scan_of_after? hv]
              exact scan_of_afterItems? h
          · cases h
      · cases h

theorem scan_of_afterMembers? {stack : List Bracket} : ∀ {first : Bool}
    {ms : List (Except Flaw String × Tree)} {s r : Bytes}, afterMembers? first ms s = some r →
    scanPart first .object stack s = scan .passed stack r
  | first, [], s, r, h => by
      rw [afterMembers?] at h
      split at h
      · next hn =>
          cases h
          exact Skipping.scanPart_of_nextKey_done hn
      · cases h
  | first, (key, v) :: ms, s, r, h => by
      rw [afterMembers?] at h
      split at h
      · next r' hn =>
          split at h
          · next r'' hv =>
              rw [scanPart_of_afterKey? hn, scan_of_after? hv]
              exact scan_of_afterMembers? h
          · cases h
      · cases h

end

end Tree
end InterfaceSchema.Json
