import InterfaceSchema.Json.Skipping

/-!
# Scalars that are read, and scalars that are passed over

To pass over a scalar asks less of it than to read it: numbers need not be in range, and escapes
in a text need not make up characters.  Where a scalar can be read, passing over it ends at the
same place.

* `Literal.skip_of_read`: string literals.
* `Number.skip_of_read`: numbers.
* `Token.starts_of_read`: all scalars; what else is read as a token is an opening bracket.
-/

namespace InterfaceSchema.Json

open InterfaceSchema.Text (Bytes)

/-! ### String literals -/

namespace Literal

/-- An escape is passed over, and then the rest. -/
theorem skip_of_escape {b : UInt8} {s r : Bytes} (hb : glyph b = '\\')
    (h : skipEscape s = .ok r) : skip (b :: s) = skip r := by
  rw [skip, if_neg (by rw [hb]; decide), if_pos hb]
  split
  · next f hf => rw [h] at hf; cases hf
  · next r' hr => rw [h] at hr; cases hr; rfl

theorem skipEscape_of_hex4 {b : UInt8} {s r : Bytes} {n : Nat} (hb : glyph b = 'u')
    (h : readHex4 s = .ok (n, r)) : skipEscape (b :: s) = .ok r := by
  have hnone : escaped? b = none := by rw [escaped?, hb]; rfl
  simp only [skipEscape, hnone, hb, h, if_true]

/-- A second surrogate is passed over as an escape of its own. -/
theorem skip_of_readLowSurrogate {high : Nat} {s r : Bytes} {c : Char}
    (h : readLowSurrogate high s = .ok (c, r)) : skip s = skip r := by
  unfold readLowSurrogate at h
  split at h
  · cases h
  · next b s =>
      split at h
      · next hb =>
          split at h
          · cases h
          · next b' s =>
              split at h
              · next hb' =>
                  split at h
                  · cases h
                  · next low r' hlow =>
                      split at h
                      · simp only [Except.ok.injEq, Prod.mk.injEq] at h
                        obtain ⟨-, rfl⟩ := h
                        exact skip_of_escape hb (skipEscape_of_hex4 hb' hlow)
                      · cases h
              · cases h
      · cases h

/-- An escape by code units is read whole; passed over it may be two. -/
theorem skip_of_readEscape {b : UInt8} {s r : Bytes} {c : Char} (hb : glyph b = '\\')
    (h : readEscape s = .ok (c, r)) : skip (b :: s) = skip r := by
  unfold readEscape at h
  split at h
  · cases h
  · next b' s =>
      split at h
      · next c' hc =>
          cases h
          exact skip_of_escape hb (by simp only [skipEscape, hc])
      · next hc =>
          split at h
          · next hu =>
              rw [readCodeUnits] at h
              split at h
              · cases h
              · next n r' hn =>
                  rw [skip_of_escape hb (skipEscape_of_hex4 hu hn)]
                  split at h
                  · cases h
                  · split at h
                    · exact skip_of_readLowSurrogate h
                    · cases h
                      rfl
          · cases h

/-- What is read as the content of a literal is passed over as such. -/
theorem skip_of_readContent {read s r content : Bytes}
    (h : readContent read s = .ok (content, r)) : skip s = .ok r := by
  fun_induction readContent read s with
  | case1 => cases h
  | case2 read b s hb => cases h; rw [skip, if_pos hb]
  | case3 => cases h
  | case4 read b s _ hb c r' hx ih => rw [skip_of_readEscape hb hx, ih h]
  | case5 => cases h
  | case6 read b s hquote hescape hplain ih =>
      rw [skip, if_neg hquote, if_neg hescape, if_neg hplain, ih h]

/-- **A string literal that is read can be passed over**, and both end alike. -/
theorem skip_of_read {s r : Bytes} {t : String} (h : read s = .ok (t, r)) : skip s = .ok r := by
  rw [read] at h
  split at h
  · cases h
  · next content r' hcontent =>
      split at h
      · cases h
        exact skip_of_readContent hcontent
      · cases h

end Literal

/-! ### Numbers -/

/-- The token is a number. -/
def Token.IsNumber : Token → Prop
  | .integer _ | .decimal _ => True
  | _ => False

namespace Number

/-- What a number comes to is a number. -/
theorem isNumber_of_toDecimal {p : Parts} {s r : Bytes} {t : Token}
    (h : p.toDecimal s = .ok (t, r)) : t.IsNumber := by
  rw [Parts.toDecimal] at h
  split at h
  · cases h
    trivial
  · cases h

theorem isNumber_of_toInteger {p : Parts} {s r : Bytes} {t : Token}
    (h : p.toInteger s = .ok (t, r)) : t.IsNumber := by
  rw [Parts.toInteger] at h
  split at h
  · split at h
    · exact isNumber_of_toDecimal h
    · cases h
      trivial
  · cases h
    trivial

/-- A power that is read is passed over as one. -/
theorem power_of_readPower {p : Parts} {s r : Bytes} {t : Token}
    (h : p.readPower s = .ok (t, r)) : Skipping.power s = .ok r ∧ t.IsNumber := by
  simp only [Parts.readPower] at h
  split at h
  · cases h
  · next b s' heq =>
      split at h
      · next hb =>
          -- the first digit is one of those in front
          have hdigits : (digits (b :: s')).2 = (digits s').2 := by simp [digits, hb]
          have hpower : Skipping.power s = .ok (digits s').2 := by
            simp only [Skipping.power, heq, hb, if_true]
          rw [hdigits] at h
          rw [hpower]
          split at h
          · exact ⟨congrArg Except.ok (Parts.rest_of_toDecimal h).symm, isNumber_of_toDecimal h⟩
          · split at h
            · cases h
              exact ⟨rfl, trivial⟩
            · cases h
      · cases h

theorem numberEnd_of_readEnd {p : Parts} {s r : Bytes} {t : Token}
    (h : p.readEnd s = .ok (t, r)) : Skipping.numberEnd s = .ok r ∧ t.IsNumber := by
  unfold Parts.readEnd at h
  split at h
  · exact ⟨congrArg Except.ok (Parts.rest_of_toDecimal h).symm, isNumber_of_toDecimal h⟩
  · next b s =>
      split at h
      · next hb => simpa only [Skipping.numberEnd, hb] using power_of_readPower h
      · next hb => simpa only [Skipping.numberEnd, hb] using power_of_readPower h
      · next he hE =>
          have hend : Skipping.numberEnd (b :: s) = .ok (b :: s) := by
            simp only [Skipping.numberEnd]
          rw [Parts.rest_of_toDecimal h, hend]
          exact ⟨rfl, isNumber_of_toDecimal h⟩

/-- A fraction that is read is passed over as one. -/
theorem fraction_of_readFraction {p : Parts} {s r : Bytes} {t : Token}
    (h : p.readFraction s = .ok (t, r)) : Skipping.fraction s = .ok r ∧ t.IsNumber := by
  unfold Parts.readFraction at h
  rw [Skipping.fraction]
  split at h
  · cases h
  · cases h
  · next ds rest hend hnone heq =>
      rw [heq]
      cases ds with
      | nil => exact absurd rfl hnone
      | cons d ds => exact numberEnd_of_readEnd h

/-- What is read after the whole part is passed over as such. -/
theorem numberRest_of_readOn {p : Parts} {s r : Bytes} {t : Token}
    {whole : Bytes → Outcome Token} (hwhole : ∀ {s}, whole s = .ok (t, r) → r = s ∧ t.IsNumber)
    (h : p.readOn s whole = .ok (t, r)) : Skipping.numberRest s = .ok r ∧ t.IsNumber := by
  unfold Parts.readOn at h
  split at h
  · obtain ⟨rfl, ht⟩ := hwhole h
    exact ⟨rfl, ht⟩
  · next b s =>
      split at h
      · next hb => simpa only [Skipping.numberRest, hb] using fraction_of_readFraction h
      · next hb => simpa only [Skipping.numberRest, hb] using power_of_readPower h
      · next hb => simpa only [Skipping.numberRest, hb] using power_of_readPower h
      · next hpoint he hE =>
          obtain ⟨rfl, ht⟩ := hwhole h
          exact ⟨by simp only [Skipping.numberRest], ht⟩

/-- **A number that is read can be passed over**, and both end alike. -/
theorem skip_of_read {negative : Bool} {s r : Bytes} {t : Token}
    (h : read negative s = .ok (t, r)) : Skipping.number s = .ok r ∧ t.IsNumber := by
  have hinteger : ∀ {p : Parts} {s : Bytes}, p.toInteger s = .ok (t, r) → r = s ∧ t.IsNumber :=
    fun h => ⟨Parts.rest_of_toInteger h, isNumber_of_toInteger h⟩
  unfold read at h
  split at h
  · cases h
  · next b s =>
      unfold Skipping.number
      simp only
      split at h
      · next hzero =>
          rw [if_pos hzero]
          split at h
          · next b' s' =>
              split at h
              · cases h
              · next hdigit =>
                  simp only [hdigit]
                  exact numberRest_of_readOn hinteger h
          · obtain ⟨rfl, ht⟩ := hinteger h
            exact ⟨rfl, ht⟩
      · next hzero =>
          rw [if_neg hzero]
          split at h
          · next hdigit =>
              have hdigits : (digits (b :: s)).2 = (digits s).2 := by simp [digits, hdigit]
              rw [if_pos hdigit, ← hdigits]
              refine numberRest_of_readOn ?_ h
              intro s' hs'
              split at hs'
              · exact hinteger hs'
              · exact ⟨Parts.rest_of_toDecimal hs', isNumber_of_toDecimal hs'⟩
          · cases h

end Number

/-! ### Tokens -/

namespace Token

/-- The token of a word is the one for it. -/
theorem readWord_of_word {t t' : Token} {cs : List Char} {s r : Bytes}
    (h : word t cs s = .ok (t', r)) : t' = t ∧ readWord cs s = .ok r := by
  rw [word] at h
  split at h
  · cases h
  · next r' hr =>
      cases h
      exact ⟨rfl, hr⟩

/-- What a token with nothing before it is: an opening bracket, or a scalar. -/
inductive Starts (b : UInt8) (s : Bytes) : Token → Bytes → Prop where
  | list (hb : glyph b = '[') : Starts b s .list s
  | object (hb : glyph b = '\x7b') : Starts b s .object s
  | scalar {t : Token} {r : Bytes} (h : Skipping.scalar b s = .ok r) (hlist : t ≠ .list)
      (hobject : t ≠ .object) (hnull : t = .null ↔ glyph b = 'n') : Starts b s t r

/-- **A scalar that is read can be passed over**, and both end alike; else the token is the bracket
in front. -/
theorem starts_of_read {s r : Bytes} {t : Token} (h : read s = .ok (t, r)) :
    ∃ b s', skipBlanks s = b :: s' ∧ Starts b s' t r := by
  unfold read at h
  split at h
  · cases h
  · next b s' hs =>
      refine ⟨b, s', hs, ?_⟩
      have hword : ∀ {t' : Token} {cs : List Char}, word t' cs s' = .ok (t, r) →
          Skipping.scalar b s' = readWord cs s' → t' ≠ .list → t' ≠ .object →
          (t' = .null ↔ glyph b = 'n') → Starts b s' t r := by
        intro t' cs h hscalar hlist hobject hnull
        obtain ⟨rfl, hr⟩ := readWord_of_word h
        exact .scalar (hscalar.trans hr) hlist hobject hnull
      have hnumber : ∀ {negative : Bool} {s'' : Bytes}, Number.read negative s'' = .ok (t, r) →
          Skipping.scalar b s' = Skipping.number s'' → glyph b ≠ 'n' → Starts b s' t r := by
        intro negative s'' h hscalar hn
        obtain ⟨hr, ht⟩ := Number.skip_of_read h
        refine .scalar (hscalar.trans hr) ?_ ?_ ⟨?_, fun h => absurd h hn⟩ <;>
        · rintro rfl
          exact ht.elim
      split at h
      · next hb =>
          exact hword h (by rw [Skipping.scalar, hb]; rfl) (by simp) (by simp) (by simp [hb])
      · next hb =>
          exact hword h (by rw [Skipping.scalar, hb]; rfl) (by simp) (by simp) (by simp [hb])
      · next hb =>
          exact hword h (by rw [Skipping.scalar, hb]; rfl) (by simp) (by simp) (by simp [hb])
      · next hb => exact hnumber h (by rw [Skipping.scalar, hb]; rfl) (by simp [hb])
      · next hb => cases h; exact .list hb
      · next hb => cases h; exact .object hb
      · next hb =>
          split at h
          · cases h
          · next text r' htext =>
              cases h
              refine .scalar ?_ (by simp) (by simp) (by simp [hb])
              rw [Skipping.scalar, hb]
              exact Literal.skip_of_read htext
      · next hnull _ _ _ _ _ _ =>
          split at h
          · next hdigit => exact hnumber h (by simp [Skipping.scalar, hdigit]) hnull
          · cases h

end Token

end InterfaceSchema.Json
