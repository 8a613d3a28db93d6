import InterfaceSchema.Proofs.Literals
import InterfaceSchema.Proofs.Numerals

/-!
# Scalars and their grammar

A scan of a scalar takes what the grammar says, and it takes all of it.  What a reader makes of a
scalar is then settled by the scalar, not by what follows it.

* `exists_of_skipScalar`: what is passed over as a scalar is one.
* `takenWhole_of_isScalar`: a scalar is scanned to its end and read alike, whatever follows.
-/

namespace InterfaceSchema.Json

open InterfaceSchema.Text (Bytes)

section
variable {s r r' x : Bytes} {b : UInt8}

/-- A word that has been read stood there, letter by letter. -/
theorem eq_of_readWord {cs : List Char} (h : readWord cs s = .ok r) : s = cs.map octet ++ r := by
  induction cs generalizing s with
  | nil =>
      cases h
      rfl
  | cons c cs ih =>
      cases s with
      | nil => cases h
      | cons b s =>
          rw [readWord] at h
          split at h
          · next hb => rw [eq_octet hb, ih h, List.map_cons, List.cons_append]
          · cases h

/-- A word of ASCII letters is read, whatever follows it. -/
theorem readWord_append {cs : List Char} (h : cs.map (fun c => glyph (octet c)) = cs)
    (r : Bytes) : readWord cs (cs.map octet ++ r) = .ok r := by
  induction cs with
  | nil => rfl
  | cons c cs ih =>
      obtain ⟨hc, hcs⟩ := List.cons.inj h
      rw [List.map_cons, List.cons_append, readWord, if_pos hc]
      exact ih hcs

/-- A number without a sign starts with a digit. -/
theorem Number.Unsigned.exists_cons (h : Number.Unsigned x) :
    ∃ b s, x = b :: s ∧ isDigit b = true := by
  cases h with
  | mk hw hf hp =>
      cases hw with
      | zero => exact ⟨_, _, rfl, rfl⟩
      | digits hds _ =>
          obtain ⟨b, ds, rfl, hb⟩ := hds.exists_cons
          exact ⟨b, _, rfl, hb⟩

/-- **What a scan takes for a scalar is one.** -/
theorem exists_of_skipScalar (h : Skipping.scalar b s = .ok r) :
    ∃ x, b :: s = x ++ r ∧ IsScalar x := by
  unfold Skipping.scalar at h
  split at h
  · next hb => exact ⟨_, by rw [eq_octet hb, eq_of_readWord h]; rfl, .null⟩
  · next hb => exact ⟨_, by rw [eq_octet hb, eq_of_readWord h]; rfl, .true⟩
  · next hb => exact ⟨_, by rw [eq_octet hb, eq_of_readWord h]; rfl, .false⟩
  · next hb =>
      obtain ⟨x, rfl, hx⟩ := Number.exists_of_skip h
      exact ⟨octet '-' :: x, by rw [eq_octet hb]; rfl, .negative hx⟩
  · next hb =>
      obtain ⟨x, rfl, hx⟩ := Literal.exists_of_skip h
      exact ⟨Literal.quote :: (x ++ [Literal.quote]), by rw [eq_octet hb]; simp [Literal.quote],
        .literal hx⟩
  · split at h
    · obtain ⟨x, hx, hnumber⟩ := Number.exists_of_skip h
      exact ⟨x, hx, .number hnumber⟩
    · cases h

/-- How a scalar is scanned and read, whatever comes after it. -/
structure TakenWhole (x : Bytes) : Prop where
  starts : ∃ b s, x = b :: s ∧ isBlank b = false ∧
    ∀ r, Stops r → Skipping.scalar b (s ++ r) = .ok r
  reads : ∀ r r', Stops r → Stops r' →
    (Token.read (x ++ r)).verdict = (Token.read (x ++ r')).verdict

theorem skipBlanks_of_not_blank (hb : isBlank b = false) : skipBlanks (b :: s) = b :: s := by
  simp [skipBlanks, hb]

/-- A word is taken whole if its first letter is enough to know it by. -/
theorem takenWhole_word {c : Char} (cs : List Char) {t : Token} (hblank : isBlank (octet c) = false)
    (hcs : cs.map (fun c => glyph (octet c)) = cs)
    (hskip : ∀ s, Skipping.scalar (octet c) s = readWord cs s)
    (hread : ∀ s, Token.read (octet c :: s) = Token.word t cs s) :
    TakenWhole (octet c :: cs.map octet) := by
  refine ⟨⟨octet c, cs.map octet, rfl, hblank, ?_⟩, ?_⟩
  · intro r _
    rw [hskip, readWord_append hcs]
  · intro r r' _ _
    simp only [List.cons_append, hread, Token.word, readWord_append hcs]
    rfl

/-- Digits are digits as octets and as characters. -/
theorem isDigit_of_glyph {c : Char} (hb : isDigit b = true) (h : glyph b = c) :
    c.isDigit = true := by
  rw [← h]
  exact hb

/-- A digit is none of the other characters that a token may start with. -/
theorem scalar_of_digit (hb : isDigit b = true) (s : Bytes) :
    Skipping.scalar b s = Skipping.number (b :: s) := by
  unfold Skipping.scalar
  split
  all_goals first
    | rw [if_pos hb]
    | exact absurd (isDigit_of_glyph hb ‹_›) (by decide)

theorem isBlank_of_digit (hb : isDigit b = true) : isBlank b = false := by
  unfold isBlank
  split
  all_goals first
    | rfl
    | exact absurd (isDigit_of_glyph hb ‹_›) (by decide)

/-- A digit starts a number and nothing else. -/
theorem read_of_digit (hb : isDigit b = true) (s : Bytes) :
    Token.read (b :: s) = Number.read false (b :: s) := by
  unfold Token.read
  rw [skipBlanks_of_not_blank (isBlank_of_digit hb)]
  simp only
  split
  all_goals first
    | rw [if_pos hb]
    | exact absurd (isDigit_of_glyph hb ‹_›) (by decide)

/-- A number without a sign is taken whole. -/
theorem takenWhole_number (hx : Number.Unsigned x) : TakenWhole x := by
  obtain ⟨b, s, rfl, hb⟩ := hx.exists_cons
  refine ⟨⟨b, s, rfl, isBlank_of_digit hb, ?_⟩, ?_⟩
  · intro r hr
    rw [scalar_of_digit hb, ← List.cons_append]
    exact hx.skip_append hr
  · intro r r' hr hr'
    rw [List.cons_append, read_of_digit hb, List.cons_append, read_of_digit hb,
      ← List.cons_append, ← List.cons_append]
    exact hx.verdict_read hr hr'

theorem takenWhole_negative (hx : Number.Unsigned x) : TakenWhole (octet '-' :: x) := by
  refine ⟨⟨octet '-', x, rfl, rfl, ?_⟩, ?_⟩
  · intro r hr
    exact hx.skip_append hr
  · intro r r' hr hr'
    show (Number.read true (x ++ r)).verdict = (Number.read true (x ++ r')).verdict
    exact hx.verdict_read hr hr'

/-- A quotation mark starts a literal and nothing else. -/
theorem read_quote (s : Bytes) :
    Token.read (Literal.quote :: s) =
      match Literal.read s with
      | .error f => .error f
      | .ok (t, r) => .ok (.text t, r) :=
  rfl

/-- A literal is taken whole. -/
theorem takenWhole_literal (hx : Literal.Body x) :
    TakenWhole (Literal.quote :: (x ++ [Literal.quote])) := by
  refine ⟨⟨_, _, rfl, rfl, ?_⟩, ?_⟩
  · intro r _
    rw [List.append_assoc]
    exact Literal.skip_append hx r
  · intro r r' _ _
    have hverdict : ∀ s, (Token.read (Literal.quote :: s)).verdict =
        (Literal.read s).verdict.map Token.text := by
      intro s
      rw [read_quote]
      cases Literal.read s <;> rfl
    simp only [List.cons_append, List.append_assoc, List.nil_append, hverdict]
    exact congrArg (Except.map Token.text) (Literal.verdict_read hx r r')

/-- **A scalar is taken whole.** -/
theorem takenWhole_of_isScalar (h : IsScalar x) : TakenWhole x := by
  cases h with
  | null => exact takenWhole_word "ull".toList rfl rfl (fun _ => rfl) (fun _ => rfl)
  | true => exact takenWhole_word "rue".toList rfl rfl (fun _ => rfl) (fun _ => rfl)
  | false => exact takenWhole_word "alse".toList rfl rfl (fun _ => rfl) (fun _ => rfl)
  | number h => exact takenWhole_number h
  | negative h => exact takenWhole_negative h
  | literal h => exact takenWhole_literal h

end

end InterfaceSchema.Json
