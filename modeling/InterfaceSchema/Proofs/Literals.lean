import InterfaceSchema.Proofs.Grammar
import InterfaceSchema.Proofs.Layout
import InterfaceSchema.Proofs.Utf8

/-!
# String literals and their grammar

* `Literal.exists_of_skip`: what is passed over as a literal is one.
* `Literal.skip_append`: a literal is passed over whole.
* `Literal.verdict_read`: what a literal is read to does not hang on what follows it.
* `Literal.read_of_spells`: a literal is read to the text that it spells, however it spells it.
-/

namespace InterfaceSchema.Json

open InterfaceSchema.Text (Bytes)

namespace Literal
variable {s r x ds : Bytes} {n : Nat} {read : Bytes}

theorem glyph_quote : glyph quote = '"' := rfl

/-- Four hexadecimal digits are read to their number. -/
theorem readHex4_append (hn : Hex4 n ds) (r : Bytes) : readHex4 (ds ++ r) = .ok (n, r) := by
  cases hn with
  | mk h₁ h₂ h₃ h₄ => simp only [List.cons_append, List.nil_append, readHex4, h₁, h₂, h₃, h₄]

/-- Whatever is read so is four hexadecimal digits. -/
theorem exists_of_readHex4 (h : readHex4 s = .ok (n, r)) : ∃ ds, s = ds ++ r ∧ Hex4 n ds := by
  unfold readHex4 at h
  split at h
  · next a b c d s =>
      split at h
      · next h₁ h₂ h₃ h₄ =>
          cases h
          exact ⟨[a, b, c, d], rfl, .mk h₁ h₂ h₃ h₄⟩
      · cases h
  · cases h

/-- A letter after a backslash is not the mark of code units. -/
theorem ne_of_escaped {b : UInt8} {c : Char} (h : escaped? b = some c) : glyph b ≠ 'u' := by
  intro hb
  rw [escaped?, hb] at h
  cases h

/-- **What a scan takes for a literal is one.** -/
theorem exists_of_skip (h : skip s = .ok r) : ∃ x, s = x ++ quote :: r ∧ Body x := by
  fun_induction skip s with
  | case1 => cases h
  | case2 b s hb =>
      cases h
      exact ⟨[], by rw [eq_octet hb]; rfl, .nil⟩
  | case3 => cases h
  | case4 b s _ hb r' hx ih =>
      obtain ⟨x, rfl, hbody⟩ := ih h
      rw [eq_octet hb]
      unfold skipEscape at hx
      split at hx
      · cases hx
      · next b' s' =>
          split at hx
          · next c hc =>
              cases hx
              exact ⟨octet '\\' :: b' :: x, rfl, .letter hc hbody⟩
          · split at hx
            · next hu =>
                split at hx
                · cases hx
                · next n r' hn =>
                    cases hx
                    obtain ⟨ds, rfl, hds⟩ := exists_of_readHex4 hn
                    rw [eq_octet hu]
                    exact ⟨octet '\\' :: octet 'u' :: (ds ++ x), by simp, .unit hds hbody⟩
            · cases hx
  | case5 => cases h
  | case6 b s hquote hescape hplain ih =>
      obtain ⟨x, rfl, hbody⟩ := ih h
      refine ⟨b :: x, rfl, .plain ⟨UInt8.not_lt.1 hplain, ?_, ?_⟩ hbody⟩
      · rintro rfl
        exact hquote rfl
      · rintro rfl
        exact hescape rfl

/-- An escape by number is passed over, whatever its number. -/
theorem skipEscape_append (hn : Hex4 n ds) (r : Bytes) :
    skipEscape (octet 'u' :: (ds ++ r)) = .ok r :=
  skipEscape_of_hex4 rfl (readHex4_append hn r)

theorem Plain.glyph_ne {b : UInt8} (h : Plain b) : glyph b ≠ '"' ∧ glyph b ≠ '\\' :=
  ⟨fun hb => h.ne_quote (eq_octet hb), fun hb => h.ne_escape (eq_octet hb)⟩

/-- **A literal is passed over whole.** -/
theorem skip_append (h : Body x) (r : Bytes) : skip (x ++ quote :: r) = .ok r := by
  induction h with
  | nil => rw [List.nil_append, skip, if_pos glyph_quote]
  | plain hb _ ih =>
      obtain ⟨hquote, hescape⟩ := hb.glyph_ne
      rw [List.cons_append, skip, if_neg hquote, if_neg hescape,
        if_neg (UInt8.not_lt.2 hb.firstPlain_le), ih]
  | @letter b x c hb _ ih =>
      have hescape : skipEscape (b :: (x ++ quote :: r)) = .ok (x ++ quote :: r) := by
        simp only [skipEscape, hb]
      rw [List.cons_append, List.cons_append, skip_of_escape rfl hescape, ih]
  | unit hn _ ih =>
      rw [List.cons_append, List.cons_append, List.append_assoc,
        skip_of_escape rfl (skipEscape_append hn _), ih]

/-! ### What a literal is read to -/

theorem readContent_of_quote : readContent read (quote :: r) = .ok (read.reverse, r) := by
  rw [readContent, if_pos glyph_quote]

/-- An octet that is not special is read as it is. -/
theorem readContent_of_plain {b : UInt8} (hb : Plain b) :
    readContent read (b :: s) = readContent (b :: read) s := by
  obtain ⟨hquote, hescape⟩ := hb.glyph_ne
  rw [readContent, if_neg hquote, if_neg hescape, if_neg (UInt8.not_lt.2 hb.firstPlain_le)]

/-- An escape is read to the octets of its character. -/
theorem readContent_escape :
    readContent read (octet '\\' :: s) =
      match readEscape s with
      | .error f => .error f
      | .ok (c, r) => readContent ((String.utf8EncodeChar c).reverse ++ read) r := by
  have hescape : glyph (octet '\\') = '\\' := rfl
  rw [readContent, if_neg (by decide), if_pos hescape]
  split <;> simp_all

/-- An escape by letter is read to what the letter stands for. -/
theorem readEscape_of_letter {b : UInt8} {c : Char} (hb : escaped? b = some c) :
    readEscape (b :: s) = .ok (c, s) := by
  simp only [readEscape, hb]

/-- An escape by number is read to the character of the number, unless it is half of a pair. -/
theorem readEscape_of_unit (hn : Hex4 n ds) (r : Bytes) :
    readEscape (octet 'u' :: (ds ++ r)) =
      if isLowSurrogate n then .error (.here .loneSurrogate r)
      else if isHighSurrogate n then readLowSurrogate n r
      else .ok (.ofNat n, r) := by
  show readCodeUnits (ds ++ r) = _
  simp only [readCodeUnits, readHex4_append hn r]

/-- The second half of a pair makes a character with the first, if it is one. -/
theorem readLowSurrogate_of_unit (high : Nat) (hn : Hex4 n ds) (r : Bytes) :
    readLowSurrogate high (octet '\\' :: octet 'u' :: (ds ++ r)) =
      if isLowSurrogate n then
        .ok (.ofNat (0x10000 + (high - 0xd800) * 0x400 + (n - 0xdc00)), r)
      else .error (.here .loneSurrogate r) := by
  have hescape : glyph (octet '\\') = '\\' := rfl
  have hunit : glyph (octet 'u') = 'u' := rfl
  simp only [readLowSurrogate, hescape, hunit, if_true, readHex4_append hn r]

/-- How a literal is read to its end does not hang on what follows it. -/
def ReadsAlike (x : Bytes) : Prop :=
  ∀ read r r', (readContent read (x ++ quote :: r)).verdict =
    (readContent read (x ++ quote :: r')).verdict

/-- So it is after the first of two surrogates: there is one flaw, or one character before the
same end. -/
def PairsAlike (x : Bytes) : Prop :=
  ∀ high, (∃ flaw, ∀ r, ∃ f, readLowSurrogate high (x ++ quote :: r) = .error f ∧
      f.flaw = flaw) ∨
    ∃ c y, ReadsAlike y ∧ ∀ r, readLowSurrogate high (x ++ quote :: r) = .ok (c, y ++ quote :: r)

/-- Where no pair can be completed, the first half is a fault with or without more after the
literal. -/
theorem pairsAlike_of_ne {cause : Cause}
    (h : ∀ high r, ∃ k, readLowSurrogate high (x ++ quote :: r) = .error ⟨[], cause, k⟩) :
    PairsAlike x := by
  intro high
  refine .inl ⟨⟨[], cause⟩, ?_⟩
  intro r
  obtain ⟨k, hk⟩ := h high r
  exact ⟨_, hk, rfl⟩

/-- Two surrogates are read at once, so that both are proved together. -/
theorem alike_of_body (h : Body x) : ReadsAlike x ∧ PairsAlike x := by
  induction h with
  | nil =>
      constructor
      · intro read r r'
        rw [List.nil_append, List.nil_append, readContent_of_quote, readContent_of_quote]
        rfl
      · have hquote : ∀ high r, ∃ k, readLowSurrogate high (quote :: r) =
            .error ⟨[], .unfinishedSurrogates, k⟩ := fun _ _ => ⟨_, rfl⟩
        exact pairsAlike_of_ne hquote
  | plain hb _ ih =>
      constructor
      · intro read r r'
        rw [List.cons_append, List.cons_append, readContent_of_plain hb, readContent_of_plain hb]
        exact ih.1 _ r r'
      · exact pairsAlike_of_ne fun _ _ => ⟨_, if_neg hb.glyph_ne.2⟩
  | letter hb _ ih =>
      constructor
      · intro read r r'
        simp only [List.cons_append, readContent_escape, readEscape_of_letter hb]
        exact ih.1 _ r r'
      · exact pairsAlike_of_ne fun _ _ => ⟨_, if_neg (ne_of_escaped hb)⟩
  | @unit n ds x hn _ ih =>
      constructor
      · intro read r r'
        simp only [List.cons_append, List.append_assoc, readContent_escape, readEscape_of_unit hn]
        by_cases hlow : isLowSurrogate n = true
        · simp only [hlow, if_true]
          rfl
        by_cases hhigh : isHighSurrogate n = true
        · simp only [hlow, hhigh, if_true]
          rcases ih.2 n with ⟨flaw, hflaw⟩ | ⟨c, y, hy, hpair⟩
          · obtain ⟨f, hf, rfl⟩ := hflaw r
            obtain ⟨f', hf', hsame⟩ := hflaw r'
            simp [hf, hf', Outcome.verdict, hsame]
          · simp only [hpair]
            exact hy _ r r'
        · simp only [hlow, hhigh]
          exact ih.1 _ r r'
      · intro high
        have hread := readLowSurrogate_of_unit high hn
        simp only [List.cons_append, List.append_assoc]
        by_cases hlow : isLowSurrogate n = true
        · simp only [hlow, if_true] at hread
          exact .inr ⟨_, x, ih.1, fun r => hread _⟩
        · simp only [hlow] at hread
          exact .inl ⟨⟨[], .loneSurrogate⟩, fun r => ⟨_, hread _, rfl⟩⟩

/-- The text of a content. -/
def decoded (content : Bytes) : Except Flaw String :=
  match Text.Utf8.decode content with
  | .ok cs => .ok (.ofList cs)
  | .error _ => .error ⟨[], .invalidEncoding⟩

/-- A literal comes to its content, if this is UTF-8. -/
theorem verdict_read_eq (s : Bytes) :
    (Literal.read s).verdict =
      match (readContent [] s).verdict with
      | .ok content => decoded content
      | .error flaw => .error flaw := by
  unfold Literal.read
  cases readContent [] s with
  | error f => rfl
  | ok p =>
      obtain ⟨content, r⟩ := p
      simp only [Outcome.verdict, decoded]
      cases Text.Utf8.decode content <;> rfl

/-- **What a literal is read to does not hang on what follows it.** -/
theorem verdict_read (h : Body x) (r r' : Bytes) :
    (Literal.read (x ++ quote :: r)).verdict = (Literal.read (x ++ quote :: r')).verdict := by
  rw [verdict_read_eq, verdict_read_eq, (alike_of_body h).1 [] r r']

/-- A character that stands as it is does so in all its octets. -/
theorem plain_of_mem_encodeChar {c : Char} (hplain : 0x20 ≤ c.toNat) (hquote : c ≠ '"')
    (hescape : c ≠ '\\') {b : UInt8} (hb : b ∈ String.utf8EncodeChar c) : Plain b := by
  have hascii : b.toNat < 0x80 → c.toNat = b.toNat := fun hlt =>
    (Text.Utf8.mem_encodeChar_iff hlt).1 hb
  refine ⟨?_, ?_, ?_⟩
  · by_contra hlt
    have hlt' : b.toNat < 0x20 := UInt8.lt_iff_toNat_lt.1 (UInt8.not_le.1 hlt)
    have := hascii (Nat.lt_trans hlt' (by decide))
    omega
  · rintro rfl
    exact hquote (Char.toNat_inj.1 (hascii (by decide)))
  · rintro rfl
    exact hescape (Char.toNat_inj.1 (hascii (by decide)))

/-- Octets none of which is special are read as they are. -/
theorem readContent_of_all_plain {y : Bytes} (hy : ∀ b ∈ y, Plain b) :
    readContent read (y ++ s) = readContent (y.reverse ++ read) s := by
  induction y generalizing read with
  | nil => rfl
  | cons b y ih =>
      rw [List.cons_append, readContent_of_plain (hy b List.mem_cons_self),
        ih fun b' hb' => hy b' (List.mem_cons_of_mem b hb')]
      simp

/-- A spelling of characters is read to their octets. -/
theorem readContent_of_spells {cs : List Char} (h : Spells cs x) (read r : Bytes) :
    readContent read (x ++ quote :: r) = .ok (read.reverse ++ Text.Utf8.encode cs, r) := by
  have hcons : ∀ (c : Char) (cs : List Char) (read : Bytes),
      ((String.utf8EncodeChar c).reverse ++ read).reverse ++ Text.Utf8.encode cs =
        read.reverse ++ Text.Utf8.encode (c :: cs) := by
    intro c cs read
    simp [Text.Utf8.encode_cons]
  induction h generalizing read with
  | nil =>
      rw [List.nil_append, readContent_of_quote]
      simp [Text.Utf8.encode]
  | plain hplain hquote hescape _ ih =>
      rw [List.append_assoc, readContent_of_all_plain, ih, hcons]
      intro b hb
      exact plain_of_mem_encodeChar hplain hquote hescape hb
  | letter hb _ ih =>
      simp only [List.cons_append, readContent_escape, readEscape_of_letter hb, ih, hcons]
  | unit hn hhigh hlow _ ih =>
      simp only [List.cons_append, List.append_assoc, readContent_escape, readEscape_of_unit hn,
        hhigh, hlow, Bool.false_eq_true, if_false, ih, hcons]
  | @pair high low ds es cs x hds hes hhigh hlow _ ih =>
      have hlow' : isLowSurrogate high = false := by
        simp only [isHighSurrogate, isLowSurrogate, Bool.and_eq_true, Bool.and_eq_false_iff,
          decide_eq_true_eq, decide_eq_false_iff_not] at hhigh ⊢
        omega
      simp only [List.cons_append, List.append_assoc, readContent_escape, readEscape_of_unit hds,
        readLowSurrogate_of_unit _ hes, hhigh, hlow, hlow', if_true, Bool.false_eq_true, if_false,
        ih, hcons]

/-- **A literal is read to the text that it spells.** -/
theorem read_of_spells {t : String} (h : Spells t.toList x) (r : Bytes) :
    Literal.read (x ++ quote :: r) = .ok (t, r) := by
  have hcontent : readContent [] (x ++ quote :: r) = .ok (Text.Utf8.encode t.toList, r) :=
    readContent_of_spells h [] r
  have hdecode := Text.Utf8.decode_eq_ok_iff.2 (rfl : Text.Utf8.encode t.toList = _)
  simp only [Literal.read, hcontent, hdecode, String.ofList_toList]

/-- What spells characters may stand between quotation marks. -/
theorem Spells.body {cs : List Char} (h : Spells cs x) : Body x := by
  induction h with
  | nil => exact .nil
  | @plain c cs x hplain hquote hescape _ ih =>
      have hc := fun b hb => plain_of_mem_encodeChar hplain hquote hescape (b := b) hb
      generalize String.utf8EncodeChar c = y at hc
      induction y with
      | nil => exact ih
      | cons b y ihy =>
          exact .plain (hc b List.mem_cons_self)
            (ihy fun b' hb' => hc b' (List.mem_cons_of_mem b hb'))
  | letter hb _ ih => exact .letter hb ih
  | unit hn _ _ _ ih => exact .unit hn ih
  | pair hds hes _ _ _ ih => exact .unit hds (.unit hes ih)

end Literal

end InterfaceSchema.Json
