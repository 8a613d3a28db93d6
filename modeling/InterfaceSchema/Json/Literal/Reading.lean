import InterfaceSchema.Json.Fault
import InterfaceSchema.Json.Octet

/-!
# JSON — string literals, read

Reading a string literal whose opening quotation mark has been taken.  A literal that is used is
read to its content, whose encoding is checked at its end; one that is passed over is only
checked for the form of its escapes.
-/

namespace InterfaceSchema.Json.Literal

open InterfaceSchema.Text (Bytes Utf8.decode)

/-- The code unit of four hexadecimal digits. -/
def readHex4 : Bytes → Outcome Nat
  | a :: b :: c :: d :: r =>
    match hexDigit? a, hexDigit? b, hexDigit? c, hexDigit? d with
    | some a, some b, some c, some d => .ok (((a * 16 + b) * 16 + c) * 16 + d, r)
    | _, _, _, _ => .error (.here .invalidEscape r)
  | _ => .error (.here .endInText [])

def isHighSurrogate (n : Nat) : Bool := 0xd800 ≤ n && n < 0xdc00

def isLowSurrogate (n : Nat) : Bool := 0xdc00 ≤ n && n < 0xe000

/-- The character of a pair of surrogates, the first of which has been read. -/
def readLowSurrogate (high : Nat) : Bytes → Outcome Char
  | [] => .error (.here .endInText [])
  | b :: r =>
    if glyph b = '\\' then
      match r with
      | [] => .error (.here .endInText [])
      | b :: r =>
        if glyph b = 'u' then
          match readHex4 r with
          | .error f => .error f
          | .ok (low, r) =>
            if isLowSurrogate low then
              .ok (.ofNat (0x10000 + (high - 0xd800) * 0x400 + (low - 0xdc00)), r)
            else .error (.here .loneSurrogate r)
        else .error (.here .unfinishedSurrogates r)
    else .error (.here .unfinishedSurrogates r)

/-- The character of an escape by code units. -/
def readCodeUnits (s : Bytes) : Outcome Char :=
  match readHex4 s with
  | .error f => .error f
  | .ok (n, r) =>
    if isLowSurrogate n then .error (.here .loneSurrogate r)
    else if isHighSurrogate n then readLowSurrogate n r
    else .ok (.ofNat n, r)

/-- The character that a letter after a backslash stands for. -/
def escaped? (b : UInt8) : Option Char :=
  match glyph b with
  | '"'  => some '"'
  | '\\' => some '\\'
  | '/'  => some '/'
  | 'b'  => some '\x08'
  | 'f'  => some '\x0c'
  | 'n'  => some '\n'
  | 'r'  => some '\r'
  | 't'  => some '\t'
  | _    => none

/-- The character of an escape, after its backslash. -/
def readEscape : Bytes → Outcome Char
  | [] => .error (.here .endInText [])
  | b :: r =>
    match escaped? b with
    | some c => .ok (c, r)
    | none => if glyph b = 'u' then readCodeUnits r else .error (.here .invalidEscape r)

theorem length_readHex4 {s r : Bytes} {n : Nat} (h : readHex4 s = .ok (n, r)) :
    r.length < s.length := by
  unfold readHex4 at h
  split at h
  · split at h
    · simp only [Except.ok.injEq, Prod.mk.injEq] at h
      simp only [h.2, List.length_cons]
      omega
    · cases h
  · cases h

theorem length_readLowSurrogate {high : Nat} {s r : Bytes} {c : Char}
    (h : readLowSurrogate high s = .ok (c, r)) : r.length < s.length := by
  unfold readLowSurrogate at h
  split at h
  · cases h
  · split at h
    · split at h
      · cases h
      · split at h
        · split at h
          · cases h
          · rename_i hx
            have := length_readHex4 hx
            split at h
            · simp only [Except.ok.injEq, Prod.mk.injEq] at h
              simp only [← h.2, List.length_cons]
              omega
            · cases h
        · cases h
    · cases h

theorem length_readCodeUnits {s r : Bytes} {c : Char} (h : readCodeUnits s = .ok (c, r)) :
    r.length < s.length := by
  unfold readCodeUnits at h
  split at h
  · cases h
  · rename_i hx
    have := length_readHex4 hx
    split at h
    · cases h
    · split at h
      · have := length_readLowSurrogate h
        omega
      · cases h
        assumption

/-- An escape takes at least the letter after its backslash. -/
theorem length_readEscape {s r : Bytes} {c : Char} (h : readEscape s = .ok (c, r)) :
    r.length < s.length := by
  unfold readEscape at h
  split at h
  · cases h
  · split at h
    · cases h
      simp
    · split at h
      · have := length_readCodeUnits h
        simp only [List.length_cons]
        omega
      · cases h

/-- Octets below this one may not stand in a literal. -/
def firstPlain : UInt8 := 0x20

/-- The content up to the closing quotation mark, after the octets `read` (last first). -/
def readContent (read : Bytes) (s : Bytes) : Outcome Bytes :=
  match s with
  | [] => .error (.here .endInText [])
  | b :: r =>
    if glyph b = '"' then .ok (read.reverse, r)
    else if glyph b = '\\' then
      match _h : readEscape r with
      | .error f => .error f
      | .ok (c, r') => readContent ((String.utf8EncodeChar c).reverse ++ read) r'
    else if b < firstPlain then .error (.here .controlCharacter r)
    else readContent (b :: read) r
termination_by s.length
decreasing_by
  · have := length_readEscape ‹_›
    simp only [List.length_cons]
    omega
  · simp

/-- The text of a literal that is used. -/
def read (s : Bytes) : Outcome String :=
  match readContent [] s with
  | .error f => .error f
  | .ok (content, r) =>
    match Utf8.decode content with
    | .ok cs => .ok (.ofList cs, r)
    | .error undecoded => .error ⟨[], .invalidEncoding, r.length + undecoded⟩

/-- What follows an escape that is passed over, after its backslash. -/
def skipEscape : Bytes → Except Fault Bytes
  | [] => .error (.here .endInText [])
  | b :: r =>
    match escaped? b with
    | some _ => .ok r
    | none =>
      if glyph b = 'u' then
        match readHex4 r with
        | .error f => .error f
        | .ok (_, r) => .ok r
      else .error (.here .invalidEscape r)

theorem length_skipEscape {s r : Bytes} (h : skipEscape s = .ok r) : r.length < s.length := by
  unfold skipEscape at h
  split at h
  · cases h
  · split at h
    · cases h
      simp
    · split at h
      · split at h
        · cases h
        · rename_i hx
          cases h
          exact Nat.lt_succ_of_lt (length_readHex4 hx)
      · cases h

/-- What follows a literal that is passed over. -/
def skip (s : Bytes) : Except Fault Bytes :=
  match s with
  | [] => .error (.here .endInText [])
  | b :: r =>
    if glyph b = '"' then .ok r
    else if glyph b = '\\' then
      match _h : skipEscape r with
      | .error f => .error f
      | .ok r' => skip r'
    else if b < firstPlain then .error (.here .controlCharacter (b :: r))
    else skip r
termination_by s.length
decreasing_by
  · have := length_skipEscape ‹_›
    simp only [List.length_cons]
    omega
  · simp

/-- The content is followed by a quotation mark, which is taken too. -/
theorem length_readContent {read s r content : Bytes}
    (h : readContent read s = .ok (content, r)) : r.length < s.length := by
  fun_induction readContent read s with
  | case1 => cases h
  | case2 => cases h; simp
  | case3 => cases h
  | case4 read b s _ _ c r' hx ih =>
    have := length_readEscape hx
    have := ih h
    simp only [List.length_cons]
    omega
  | case5 => cases h
  | case6 read b s _ _ _ ih => exact Nat.lt_succ_of_lt (ih h)

/-- A literal takes at least its last quotation mark. -/
theorem length_read {s r : Bytes} {t : String} (h : read s = .ok (t, r)) :
    r.length < s.length := by
  unfold read at h
  split at h
  · cases h
  · rename_i hc
    split at h
    · cases h
      exact length_readContent hc
    · cases h

/-- So it does when it is passed over. -/
theorem length_skip {s r : Bytes} (h : skip s = .ok r) : r.length < s.length := by
  fun_induction skip s with
  | case1 => cases h
  | case2 => cases h; simp
  | case3 => cases h
  | case4 b s _ _ r' hx ih =>
    have := length_skipEscape hx
    have := ih h
    simp only [List.length_cons]
    omega
  | case5 => cases h
  | case6 b s _ _ _ ih => exact Nat.lt_succ_of_lt (ih h)

end InterfaceSchema.Json.Literal
