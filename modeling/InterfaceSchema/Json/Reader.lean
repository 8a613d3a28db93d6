import InterfaceSchema.Json.Literal.Reading
import InterfaceSchema.Json.Number

/-!
# JSON — readers

A reader takes a value off the front of the octets.  It always takes at least one, so that lists
and objects of any length are read by recursion on what is left.  Every value starts with a
token; lists and objects go on to their closing brackets.
-/

namespace InterfaceSchema.Json

open InterfaceSchema.Text (Bytes)

/-- A way to read a value off the front; what it leaves is shorter than what it got. -/
structure Reader (α : Type) where
  run : Bytes → Outcome α
  shrinks : ∀ {s r a}, run s = .ok (a, r) → r.length < s.length

/-- What follows a word whose characters are given. -/
def readWord : List Char → Bytes → Except Fault Bytes
  | [], s          => .ok s
  | _ :: _, []     => .error (.here .endInValue [])
  | c :: cs, b :: r => if glyph b = c then readWord cs r else .error (.here .literalExpected r)

/-- A word takes nothing back. -/
theorem length_readWord_le {cs : List Char} {s r : Bytes} (h : readWord cs s = .ok r) :
    r.length ≤ s.length := by
  induction cs generalizing s with
  | nil => cases h; exact Nat.le_refl _
  | cons c cs ih =>
    cases s with
    | nil => cases h
    | cons b s =>
      simp only [readWord] at h
      split at h
      · exact Nat.le_succ_of_le (ih h)
      · cases h

namespace Token

/-- The token of a word whose first character has been read. -/
def word (t : Token) (cs : List Char) (s : Bytes) : Outcome Token :=
  match readWord cs s with
  | .error f => .error f
  | .ok r => .ok (t, r)

/-- The token in front, after blanks.  Of a list or an object it is the opening bracket alone. -/
def read (s : Bytes) : Outcome Token :=
  match skipBlanks s with
  | [] => .error (.past .endInValue [])
  | b :: r =>
    match glyph b with
    | 'n'    => word .null "ull".toList r
    | 't'    => word (.boolean true) "rue".toList r
    | 'f'    => word (.boolean false) "alse".toList r
    | '-'    => Number.read true r
    | '['    => .ok (.list, r)
    | '\x7b' => .ok (.object, r)
    | '"'    =>
      match Literal.read r with
      | .error f => .error f
      | .ok (t, r) => .ok (.text t, r)
    | _ =>
      if isDigit b then Number.read false (b :: r) else .error (.past .valueExpected (b :: r))

theorem length_word_le {t t' : Token} {cs : List Char} {s r : Bytes}
    (h : word t cs s = .ok (t', r)) : r.length ≤ s.length := by
  unfold word at h
  split at h
  · cases h
  · rename_i hw
    cases h
    exact length_readWord_le hw

/-- Every token takes at least its first octet. -/
theorem length_read {s r : Bytes} {t : Token} (h : read s = .ok (t, r)) :
    r.length < s.length := by
  have hs := length_skipBlanks_le s
  unfold read at h
  split at h
  · cases h
  · rename_i b s' heq
    rw [heq] at hs
    refine Nat.lt_of_lt_of_le ?_ hs
    split at h
    · exact Nat.lt_succ_of_le (length_word_le h)
    · exact Nat.lt_succ_of_le (length_word_le h)
    · exact Nat.lt_succ_of_le (length_word_le h)
    · exact Nat.lt_succ_of_lt (Number.length_read h)
    · cases h; simp
    · cases h; simp
    · split at h
      · cases h
      · rename_i hl
        cases h
        exact Nat.lt_succ_of_lt (Literal.length_read hl)
    · split at h
      · exact Number.length_read h
      · cases h

/-- The fault of a value that is not of the wanted kind: at the end of a scalar, at the opening
bracket of anything else.  `rest` follows the token. -/
def misfit (t : Token) (cause : Cause) (rest : Bytes) : Fault :=
  match t with
  | .list | .object => ⟨[], cause, rest.length + 1⟩
  | _ => .here cause rest

end Token

namespace Reader
variable {α β : Type}

/-- Changes what is read. -/
def map (f : α → β) (p : Reader α) : Reader β where
  run s :=
    match p.run s with
    | .error e => .error e
    | .ok (a, r) => .ok (f a, r)
  shrinks h := by
    split at h
    · cases h
    · rename_i hp
      cases h
      exact p.shrinks hp

/-- Reads a token and goes on by it, perhaps without taking any more. -/
def scalar (accept : Token → Except Cause α) : Reader α where
  run s :=
    match Token.read s with
    | .error f => .error f
    | .ok (t, r) =>
      match accept t with
      | .ok a => .ok (a, r)
      | .error cause => .error (t.misfit cause r)
  shrinks h := by
    split at h
    · cases h
    · rename_i ht
      split at h
      · cases h
        exact Token.length_read ht
      · cases h

/-- A text. -/
def text : Reader String := scalar fun
  | .text t => .ok t
  | t => .error (.wrongKind t .text)

/-- A truth value. -/
def flag : Reader Bool := scalar fun
  | .boolean b => .ok b
  | t => .error (.wrongKind t .flag)

/-- A whole number of 64 bits with a sign. -/
def integer : Reader Int64 := scalar fun
  | .integer n =>
    if Int64.minValue.toInt ≤ n ∧ n ≤ Int64.maxValue.toInt then .ok (.ofInt n)
    else .error (.tooLarge n .integer)
  | t => .error (.wrongKind t .integer)

/-- A null, read as nothing, or a value. -/
def nullable (p : Reader α) : Reader (Option α) where
  run s :=
    match skipBlanks s with
    | b :: r =>
      if glyph b = 'n' then
        match readWord "ull".toList r with
        | .error f => .error f
        | .ok r => .ok (none, r)
      else (p.map some).run s
    | [] => (p.map some).run s
  shrinks {s r a} h := by
    split at h
    · rename_i heq
      have hs := length_skipBlanks_le s
      rw [heq] at hs
      split at h
      · split at h
        · cases h
        · rename_i hw
          cases h
          exact Nat.lt_of_lt_of_le (Nat.lt_succ_of_le (length_readWord_le hw)) hs
      · exact (p.map some).shrinks h
    · exact (p.map some).shrinks h

/-- What comes next in a list or an object: another part, or nothing after the closing bracket. -/
inductive Turn (α : Type) where
  | more (a : α) (rest : Bytes)
  | done (rest : Bytes)

def Turn.rest : Turn α → Bytes
  | .more _ r => r
  | .done r   => r

/-- Goes to the next item of a list, over the comma before it unless it is the first. -/
def nextItem (first : Bool) (s : Bytes) : Except Fault (Turn Unit) :=
  match skipBlanks s with
  | [] => .error (.past (.endIn .list) [])
  | b :: r =>
    if glyph b = ']' then .ok (.done r)
    else if first then .ok (.more () (b :: r))
    else if glyph b = ',' then
      match skipBlanks r with
      | [] => .error (.past .endInValue [])
      | b :: r =>
        if glyph b = ']' then .error (.past .trailingComma (b :: r)) else .ok (.more () (b :: r))
    else .error (.past (.endExpected .list) (b :: r))

/-- Going to the next item takes nothing back; the item takes its own. -/
theorem length_nextItem_more {first : Bool} {s r : Bytes}
    (h : nextItem first s = .ok (.more () r)) : r.length ≤ s.length := by
  have hs := length_skipBlanks_le s
  unfold nextItem at h
  split at h
  · cases h
  · rename_i b s' heq
    rw [heq] at hs
    split at h
    · cases h
    · split at h
      · cases h; exact hs
      · split at h
        · have hs' := length_skipBlanks_le s'
          split at h
          · cases h
          · rename_i heq'
            rw [heq'] at hs'
            split at h
            · cases h
            · cases h
              exact Nat.le_trans hs' (Nat.le_of_lt hs)
        · cases h

/-- The end of a list takes its closing bracket. -/
theorem length_nextItem_done {first : Bool} {s r : Bytes}
    (h : nextItem first s = .ok (.done r)) : r.length < s.length := by
  have hs := length_skipBlanks_le s
  unfold nextItem at h
  split at h
  · cases h
  · rename_i heq
    rw [heq] at hs
    split at h
    · cases h; exact hs
    · split at h
      · cases h
      · split at h
        · split at h
          · cases h
          · split at h <;> cases h
        · cases h

/-- The items from number `i` on, after the items `read` (last first), through the closing
bracket. -/
def itemsFrom (item : Reader α) (read : List α) (i : Nat) (s : Bytes) : Outcome (List α) :=
  match _hn : nextItem (i = 0) s with
  | .error f => .error f
  | .ok (.done r) => .ok (read.reverse, r)
  | .ok (.more () r) =>
    match _hi : item.run r with
    | .error f => .error (f.within (.item i))
    | .ok (a, r) => itemsFrom item (a :: read) (i + 1) r
termination_by s.length
decreasing_by exact Nat.lt_of_lt_of_le (item.shrinks ‹_›) (length_nextItem_more ‹_›)

/-- Items take at least the closing bracket after them. -/
theorem length_itemsFrom {item : Reader α} {read as : List α} {i : Nat} {s r : Bytes}
    (h : itemsFrom item read i s = .ok (as, r)) : r.length < s.length := by
  fun_induction itemsFrom item read i s with
  | case1 => cases h
  | case2 read i s r' hn => cases h; exact length_nextItem_done hn
  | case3 => cases h
  | case4 read i s r' hn a r'' hi ih =>
    exact Nat.lt_trans (ih h) (Nat.lt_of_lt_of_le (item.shrinks hi) (length_nextItem_more hn))

/-- A list of values of one kind, each read by `item`. -/
def list (item : Reader α) : Reader (List α) where
  run s :=
    match Token.read s with
    | .error f => .error f
    | .ok (.list, r) => itemsFrom item [] 0 r
    | .ok (t, r) => .error (t.misfit (.wrongKind t .list) r)
  shrinks h := by
    split at h
    · cases h
    · rename_i ht
      exact Nat.lt_trans (length_itemsFrom h) (Token.length_read ht)
    · cases h

/-- Goes to the next member of an object, over the comma before it unless it is the first, and
reads its key. -/
def nextKey (first : Bool) (s : Bytes) : Except Fault (Turn String) :=
  let key (r : Bytes) : Except Fault (Turn String) :=
    match Literal.read r with
    | .error f => .error f
    | .ok (k, r) => .ok (.more k r)
  match skipBlanks s with
  | [] => .error (.past (.endIn .object) [])
  | b :: r =>
    if glyph b = '\x7d' then .ok (.done r)
    else if first then
      if glyph b = '"' then key r else .error (.past .keyNotText (b :: r))
    else if glyph b = ',' then
      match skipBlanks r with
      | [] => .error (.past .endInValue [])
      | b :: r =>
        if glyph b = '"' then key r
        else if glyph b = '\x7d' then .error (.past .trailingComma (b :: r))
        else .error (.past .keyNotText (b :: r))
    else .error (.past (.endExpected .object) (b :: r))

/-- Going to the next member takes its key, or the closing bracket. -/
theorem length_nextKey {first : Bool} {s : Bytes} {t : Turn String}
    (h : nextKey first s = .ok t) : t.rest.length < s.length := by
  have hs := length_skipBlanks_le s
  have hk : ∀ {r : Bytes}, (match Literal.read r with
      | .error f => .error f
      | .ok (k, r) => .ok (.more k r) : Except Fault (Turn String)) = .ok t →
      t.rest.length < r.length := by
    intro r h
    split at h
    · cases h
    · rename_i hl
      cases h
      exact Literal.length_read hl
  unfold nextKey at h
  split at h
  · cases h
  · rename_i b s' heq
    rw [heq] at hs
    split at h
    · cases h; exact hs
    · split at h
      · split at h
        · exact Nat.lt_trans (hk h) hs
        · cases h
      · split at h
        · have hs' := length_skipBlanks_le s'
          split at h
          · cases h
          · rename_i heq'
            rw [heq'] at hs'
            split at h
            · have := hk h
              simp only [List.length_cons] at hs hs'
              omega
            · split at h <;> cases h
        · cases h

/-- What follows the colon after a key. -/
def readColon (s : Bytes) : Except Fault Bytes :=
  match skipBlanks s with
  | [] => .error (.past (.endIn .object) [])
  | b :: r => if glyph b = ':' then .ok r else .error (.past .colonExpected (b :: r))

/-- A colon is taken. -/
theorem length_readColon {s r : Bytes} (h : readColon s = .ok r) : r.length < s.length := by
  have hs := length_skipBlanks_le s
  unfold readColon at h
  split at h
  · cases h
  · rename_i heq
    rw [heq] at hs
    split at h
    · cases h; exact hs
    · cases h

/-- The value of the member `key`, after the colon. -/
def member (key : String) (value : Reader α) : Reader α where
  run s :=
    match readColon s with
    | .error f => .error f
    | .ok r =>
      match value.run r with
      | .error f => .error (f.within (.key key))
      | .ok p => .ok p
  shrinks h := by
    split at h
    · cases h
    · rename_i hc
      split at h
      · cases h
      · rename_i hv
        cases h
        exact Nat.lt_trans (value.shrinks hv) (length_readColon hc)

/-- The members of an object through the closing bracket.  `take` reads what follows a key into
what the members before it have made. -/
def membersFrom (take : String → α → Reader α) (first : Bool) (a : α) (s : Bytes) : Outcome α :=
  match _hn : nextKey first s with
  | .error f => .error (f.within .unread)
  | .ok (.done r) => .ok (a, r)
  | .ok (.more k r) =>
    match _ht : (take k a).run r with
    | .error f => .error f
    | .ok (a, r) => membersFrom take false a r
termination_by s.length
decreasing_by exact Nat.lt_trans ((take k _).shrinks _ht) (length_nextKey _hn)

/-- Members take at least the closing bracket after them. -/
theorem length_membersFrom {take : String → α → Reader α} {first : Bool} {a b : α} {s r : Bytes}
    (h : membersFrom take first a s = .ok (b, r)) : r.length < s.length := by
  fun_induction membersFrom take first a s with
  | case1 => cases h
  | case2 first a s r' hn => cases h; exact length_nextKey hn
  | case3 => cases h
  | case4 first a s k r' hn a' r'' ht ih =>
    exact Nat.lt_trans (ih h) (Nat.lt_trans ((take k a).shrinks ht) (length_nextKey hn))

end Reader

end InterfaceSchema.Json
