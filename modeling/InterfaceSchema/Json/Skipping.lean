import InterfaceSchema.Json.Reader

/-!
# JSON — skipping

Passing over a value that is not used.  Nothing is built and nothing is decoded; the brackets
still open are kept in a list, so that any depth of nesting is passed over alike.
-/

namespace InterfaceSchema.Json

open InterfaceSchema.Text (Bytes)

namespace Skipping

/-- What follows the power of ten of a number, after its `e`. -/
def power (s : Bytes) : Except Fault Bytes :=
  match (Number.powerSign s).2 with
  | [] => .error (.here .invalidNumber [])
  | b :: r => if isDigit b then .ok (digits r).2 else .error (.here .invalidNumber r)

/-- What follows the rest of a number, after the digits of its fraction. -/
def numberEnd : Bytes → Except Fault Bytes
  | [] => .ok []
  | b :: r =>
    match glyph b with
    | 'e' | 'E' => power r
    | _ => .ok (b :: r)

/-- What follows the fraction of a number, after its point. -/
def fraction (s : Bytes) : Except Fault Bytes :=
  match digits s with
  | ([], rest) => .error (.past .invalidNumber rest)
  | (_, rest)  => numberEnd rest

/-- What follows the rest of a number, after its whole digits. -/
def numberRest : Bytes → Except Fault Bytes
  | [] => .ok []
  | b :: r =>
    match glyph b with
    | '.' => fraction r
    | 'e' | 'E' => power r
    | _ => .ok (b :: r)

/-- What follows a number whose digits are in front. -/
def number : Bytes → Except Fault Bytes
  | [] => .error (.here .invalidNumber [])
  | b :: r =>
    if glyph b = '0' then
      match r with
      | b' :: r' =>
        if isDigit b' then .error (.past .invalidNumber (b' :: r')) else numberRest (b' :: r')
      | [] => .ok []
    else if isDigit b then numberRest (digits r).2
    else .error (.here .invalidNumber r)

/-- What follows the scalar that starts with `b`. -/
def scalar (b : UInt8) (r : Bytes) : Except Fault Bytes :=
  match glyph b with
  | 'n' => readWord "ull".toList r
  | 't' => readWord "rue".toList r
  | 'f' => readWord "alse".toList r
  | '-' => number r
  | '"' => Literal.skip r
  | _ => if isDigit b then number (b :: r) else .error (.past .valueExpected (b :: r))

/-- What follows a key and its colon. -/
def key (s : Bytes) : Except Fault Bytes :=
  match skipBlanks s with
  | [] => .error (.past (.endIn .object) [])
  | b :: r =>
    if glyph b = '"' then
      match Literal.skip r with
      | .error f => .error f
      | .ok r => Reader.readColon r
    else .error (.past .keyNotText (b :: r))

theorem length_power_le {s r : Bytes} (h : power s = .ok r) : r.length ≤ s.length := by
  have hs := Number.length_powerSign_le s
  unfold power at h
  split at h
  · cases h
  · rename_i heq
    rw [heq] at hs
    split at h
    · cases h
      exact Nat.le_trans (length_digits_le _) (Nat.le_of_lt hs)
    · cases h

theorem length_numberEnd_le {s r : Bytes} (h : numberEnd s = .ok r) : r.length ≤ s.length := by
  unfold numberEnd at h
  split at h
  · cases h; exact Nat.le_refl _
  · split at h
    · exact Nat.le_succ_of_le (length_power_le h)
    · exact Nat.le_succ_of_le (length_power_le h)
    · cases h; exact Nat.le_refl _

theorem length_fraction_le {s r : Bytes} (h : fraction s = .ok r) : r.length ≤ s.length := by
  have hs := length_digits_le s
  unfold fraction at h
  split at h
  · cases h
  · rename_i heq
    rw [heq] at hs
    exact Nat.le_trans (length_numberEnd_le h) hs

theorem length_numberRest_le {s r : Bytes} (h : numberRest s = .ok r) : r.length ≤ s.length := by
  unfold numberRest at h
  split at h
  · cases h; exact Nat.le_refl _
  · split at h
    · exact Nat.le_succ_of_le (length_fraction_le h)
    · exact Nat.le_succ_of_le (length_power_le h)
    · exact Nat.le_succ_of_le (length_power_le h)
    · cases h; exact Nat.le_refl _

/-- A number takes at least its first digit. -/
theorem length_number {s r : Bytes} (h : number s = .ok r) : r.length < s.length := by
  unfold number at h
  split at h
  · cases h
  · split at h
    · split at h
      · split at h
        · cases h
        · exact Nat.lt_succ_of_le (length_numberRest_le h)
      · cases h; simp
    · split at h
      · exact Nat.lt_succ_of_le (Nat.le_trans (length_numberRest_le h) (length_digits_le _))
      · cases h

/-- A scalar takes at least its first octet. -/
theorem length_scalar {b : UInt8} {r r' : Bytes} (h : scalar b r = .ok r') :
    r'.length < (b :: r).length := by
  unfold scalar at h
  split at h
  · exact Nat.lt_succ_of_le (length_readWord_le h)
  · exact Nat.lt_succ_of_le (length_readWord_le h)
  · exact Nat.lt_succ_of_le (length_readWord_le h)
  · exact Nat.lt_succ_of_lt (length_number h)
  · exact Nat.lt_succ_of_lt (Literal.length_skip h)
  · split at h
    · exact length_number h
    · cases h

theorem length_key {s r : Bytes} (h : key s = .ok r) : r.length < s.length := by
  have hs := length_skipBlanks_le s
  unfold key at h
  split at h
  · cases h
  · rename_i heq
    rw [heq] at hs
    split at h
    · split at h
      · cases h
      · rename_i hl
        have := Literal.length_skip hl
        have := Reader.length_readColon h
        simp only [List.length_cons] at hs
        omega
    · cases h

/-- The character of a closing bracket. -/
def closing : Bracket → Char
  | .list   => ']'
  | .object => '\x7d'

/-- Where the scan stands: before a value, just after an opening bracket, or after a part of the
innermost open bracket. -/
inductive Stage where
  | value
  | opened (bracket : Bracket)
  | passed

/-- Going on from an opening bracket to its first part takes nothing. -/
def Stage.weight : Stage → Nat
  | .opened _ => 1
  | _ => 0

/-- What follows the value being scanned, around which the brackets in `stack` are open. -/
def scan (stage : Stage) (stack : List Bracket) (s : Bytes) : Except Fault Bytes :=
  match stage with
  | .value =>
    match _hs : skipBlanks s with
    | [] => .error (.past .endInValue [])
    | b :: r =>
      if glyph b = '[' then scan (.opened .list) stack r
      else if glyph b = '\x7b' then scan (.opened .object) stack r
      else
        match _h : scalar b r with
        | .error f => .error f
        | .ok r => scan .passed stack r
  | .opened bracket =>
    match _hs : skipBlanks s with
    | [] => .error (.past (.endIn bracket) [])
    | b :: r =>
      if glyph b = closing bracket then scan .passed stack r
      else
        match bracket with
        | .list => scan .value (.list :: stack) (b :: r)
        | .object =>
          match _h : key (b :: r) with
          | .error f => .error f
          | .ok r => scan .value (.object :: stack) r
  | .passed =>
    match stack with
    | [] => .ok s
    | bracket :: outer =>
      match _hs : skipBlanks s with
      | [] => .error (.past (.endIn bracket) [])
      | b :: r =>
        if glyph b = ',' then
          match bracket with
          | .list => scan .value (.list :: outer) r
          | .object =>
            match _h : key r with
            | .error f => .error f
            | .ok r => scan .value (.object :: outer) r
        else if glyph b = closing bracket then scan .passed outer r
        else .error (.past (.endExpected bracket) (b :: r))
termination_by 2 * s.length + stage.weight
decreasing_by
  all_goals
    have := length_skipBlanks_le s
    rw [_hs, List.length_cons] at this
    simp only [Stage.weight, List.length_cons]
    try have := length_scalar _h
    try have := length_key _h
    try simp only [List.length_cons] at *
    omega

/-- A scan that starts before a value takes at least one octet. -/
def Stage.least : Stage → Nat
  | .value => 1
  | _ => 0

/-- What is left after a scan, with what its stage takes at least, is no longer than its input. -/
theorem length_scan_le {stage : Stage} {stack : List Bracket} {s r : Bytes}
    (h : scan stage stack s = .ok r) : r.length + stage.least ≤ s.length := by
  fun_induction scan stage stack s with
  | case1 | case4 | case6 | case9 | case12 | case14 | case17 => cases h
  | case11 => cases h; exact Nat.le_refl _
  | case2 stack s b r' hs _ ih | case3 stack s b r' hs _ _ ih | case7 _ stack s b r' hs _ ih
  | case8 stack s b r' hs _ ih | case13 s _ b r' hs _ ih | case16 s _ _ b r' hs _ _ ih =>
    have := ih h
    have hl := congrArg List.length hs ▸ length_skipBlanks_le _
    rw [List.length_cons] at hl
    simp only [Stage.least, List.length_cons] at *
    omega
  | case5 stack s b r' hs _ _ r'' hp ih =>
    have := ih h
    have := length_scalar hp
    have hl := length_skipBlanks_le s
    rw [hs] at hl
    simp only [Stage.least] at *
    omega
  | case10 stack s b r' hs r'' hp _ ih | case15 s _ b r' hs _ r'' hp ih =>
    have := ih h
    have := length_key hp
    have hl := length_skipBlanks_le s
    rw [hs] at hl
    simp only [Stage.least, List.length_cons] at *
    omega

end Skipping

/-- Passes over one value of any kind. -/
def Reader.skip : Reader Unit where
  run s :=
    match Skipping.scan .value [] s with
    | .error f => .error f
    | .ok r => .ok ((), r)
  shrinks h := by
    split at h
    · cases h
    · rename_i hv
      cases h
      exact Skipping.length_scan_le hv

end InterfaceSchema.Json
