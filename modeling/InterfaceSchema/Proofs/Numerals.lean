import InterfaceSchema.Proofs.Grammar
import InterfaceSchema.Proofs.Layout

/-!
# Numbers and their grammar

A number has no end of its own: it ends before what cannot go on with it (`Stops`).

* `Number.exists_of_skip`: what is passed over as a number is one.
* `Number.Unsigned.skip_append`: a number is passed over whole.
* `Number.Unsigned.verdict_read`: what a number is read to does not hang on what follows it.
-/

namespace InterfaceSchema.Json

open InterfaceSchema.Text (Bytes)

/-- No digit comes next. -/
def NoDigit (s : Bytes) : Prop := ∀ b, s.head? = some b → isDigit b = false

/-- What comes next does not go on with a number. -/
def Stops (s : Bytes) : Prop :=
  ∀ b, s.head? = some b → isDigit b = false ∧ glyph b ≠ '.' ∧ glyph b ≠ 'e' ∧ glyph b ≠ 'E'

theorem stops_nil : Stops [] := by
  intro b hb
  cases hb

theorem Stops.noDigit {s : Bytes} (h : Stops s) : NoDigit s := fun b hb => (h b hb).1

namespace Number
variable {s r w f p ds sign : Bytes} {b : UInt8}

/-- The digits as numbers. -/
def values (ds : Bytes) : List Nat := ds.map fun b => (glyph b).toNat - '0'.toNat

theorem Digits.exists_cons (h : Digits ds) : ∃ b ds', ds = b :: ds' ∧ Json.isDigit b = true := by
  cases ds with
  | nil => exact absurd rfl h.ne_nil
  | cons b ds' => exact ⟨b, ds', rfl, h.isDigit b List.mem_cons_self⟩

/-- Digits are taken up to the first octet that is none, with their values. -/
theorem digits_append (h : Digits ds) (hr : NoDigit r) : digits (ds ++ r) = (values ds, r) := by
  have htake : r.takeWhile Json.isDigit = [] := by
    cases r with
    | nil => rfl
    | cons b r => simp [hr b rfl]
  have hdrop : r.dropWhile Json.isDigit = r := by
    cases r with
    | nil => rfl
    | cons b r => simp [hr b rfl]
  rw [digits, List.takeWhile_append_of_pos h.isDigit, List.dropWhile_append_of_pos h.isDigit,
    htake, hdrop, List.append_nil]
  rfl

theorem digits_cons (hb : Json.isDigit b = true) : (digits (b :: s)).2 = (digits s).2 := by
  simp [digits, hb]

/-- What follows digits, after the first of them. -/
theorem digits_tail (h : Digits (b :: ds)) (hr : NoDigit r) : (digits (ds ++ r)).2 = r := by
  rw [← digits_cons (h.isDigit b List.mem_cons_self)]
  exact congrArg Prod.snd (digits_append h hr)

/-- The digits in front are apart from what follows them. -/
theorem exists_digits (hb : Json.isDigit b = true) :
    ∃ ds, b :: s = ds ++ (digits s).2 ∧ Digits ds ∧ ds.head? = some b := by
  refine ⟨b :: s.takeWhile Json.isDigit, ?_, ⟨by simp, ?_⟩, rfl⟩
  · rw [digits, List.cons_append, List.takeWhile_append_dropWhile]
  · intro b' hb'
    rcases List.mem_cons.1 hb' with rfl | hb'
    · exact hb
    · exact List.mem_takeWhile_imp hb'

/-- Neither a power nor what follows it starts with a digit. -/
theorem noDigit_power (hp : Power p) (hr : NoDigit r) : NoDigit (p ++ r) := by
  intro b hb
  cases hp with
  | none => exact hr b hb
  | some he _ _ =>
      obtain rfl : _ = b := Option.some.inj hb
      rcases he with rfl | rfl <;> rfl

/-- Nor does a fraction with a power behind it. -/
theorem noDigit_fraction (hf : Fraction f) (hp : Power p) (hr : NoDigit r) :
    NoDigit (f ++ (p ++ r)) := by
  cases hf with
  | none =>
      rw [List.nil_append]
      exact noDigit_power hp hr
  | point hds =>
      intro b hb
      obtain rfl : _ = b := Option.some.inj hb
      rfl

/-! ### What a scan takes -/

/-- What a scan takes for a power after its letter is a sign, perhaps, and digits. -/
theorem exists_of_power (h : Skipping.power s = .ok r) :
    ∃ sign ds, s = sign ++ (ds ++ r) ∧ PowerSign sign ∧ Digits ds := by
  obtain ⟨sign, hs, hsign⟩ : ∃ sign, s = sign ++ (powerSign s).2 ∧ PowerSign sign := by
    unfold powerSign
    split
    · exact ⟨[], rfl, .none⟩
    · split
      · next hb => exact ⟨_, by rw [eq_octet hb]; rfl, .plus⟩
      · next hb => exact ⟨_, by rw [eq_octet hb]; rfl, .minus⟩
      · exact ⟨[], rfl, .none⟩
  unfold Skipping.power at h
  split at h
  · cases h
  · next b s' hs' =>
      split at h
      · next hb =>
          obtain ⟨ds, hds, hdigits, -⟩ := exists_digits (s := s') hb
          cases h
          exact ⟨sign, ds, by rw [← hds, ← hs', ← hs], hsign, hdigits⟩
      · cases h

theorem exists_of_power_after (hb : glyph b = 'e' ∨ glyph b = 'E')
    (h : Skipping.power s = .ok r) : ∃ p, b :: s = p ++ r ∧ Power p := by
  obtain ⟨sign, ds, rfl, hsign, hds⟩ := exists_of_power h
  exact ⟨b :: (sign ++ ds), by simp, .some (hb.imp eq_octet eq_octet) hsign hds⟩

/-- At the end of a number a scan takes a power, or nothing. -/
theorem exists_of_numberEnd (h : Skipping.numberEnd s = .ok r) : ∃ p, s = p ++ r ∧ Power p := by
  unfold Skipping.numberEnd at h
  split at h
  · cases h
    exact ⟨[], rfl, .none⟩
  · split at h
    · next hb => exact exists_of_power_after (.inl hb) h
    · next hb => exact exists_of_power_after (.inr hb) h
    · cases h
      exact ⟨[], rfl, .none⟩

theorem exists_of_fraction (h : Skipping.fraction s = .ok r) :
    ∃ ds p, s = ds ++ (p ++ r) ∧ Digits ds ∧ Power p := by
  unfold Skipping.fraction at h
  split at h
  · cases h
  · next ds rest hnone heq =>
      obtain ⟨p, hrest, hp⟩ := exists_of_numberEnd h
      cases s with
      | nil =>
          cases heq
          exact (hnone rfl).elim
      | cons b s =>
          by_cases hb : isDigit b = true
          · obtain ⟨ds', hs, hds', -⟩ := exists_digits (s := s) hb
            have hdrop := digits_cons (s := s) hb
            rw [heq] at hdrop
            exact ⟨ds', p, by rw [hs, ← hdrop, hrest], hds', hp⟩
          · simp only [digits, List.takeWhile_cons, hb] at heq
            cases heq
            exact (hnone rfl).elim

/-- After the whole part a scan takes a fraction and a power, either of which may be empty. -/
theorem exists_of_numberRest (h : Skipping.numberRest s = .ok r) :
    ∃ f p, s = f ++ (p ++ r) ∧ Fraction f ∧ Power p := by
  unfold Skipping.numberRest at h
  split at h
  · cases h
    exact ⟨[], [], rfl, .none, .none⟩
  · split at h
    · next hb =>
        obtain ⟨ds, p, rfl, hds, hp⟩ := exists_of_fraction h
        exact ⟨_, p, by rw [eq_octet hb]; rfl, .point hds, hp⟩
    · next hb =>
        obtain ⟨p, hs, hp⟩ := exists_of_power_after (.inl hb) h
        exact ⟨[], p, hs, .none, hp⟩
    · next hb =>
        obtain ⟨p, hs, hp⟩ := exists_of_power_after (.inr hb) h
        exact ⟨[], p, hs, .none, hp⟩
    · cases h
      exact ⟨[], [], rfl, .none, .none⟩

/-- **What a scan takes for a number is one.** -/
theorem exists_of_skip (h : Skipping.number s = .ok r) : ∃ x, s = x ++ r ∧ Unsigned x := by
  unfold Skipping.number at h
  split at h
  · cases h
  · next b s =>
      split at h
      · next hzero =>
          obtain ⟨f, p, hs, hf, hp⟩ : ∃ f p, s = f ++ (p ++ r) ∧ Fraction f ∧ Power p := by
            split at h
            · split at h
              · cases h
              · exact exists_of_numberRest h
            · cases h
              exact ⟨[], [], rfl, .none, .none⟩
          exact ⟨_, by rw [eq_octet hzero, hs]; simp, .mk .zero hf hp⟩
      · next hzero =>
          split at h
          · next hb =>
              obtain ⟨f, p, hs, hf, hp⟩ := exists_of_numberRest h
              obtain ⟨ds, hds, hdigits, hhead⟩ := exists_digits (s := s) hb
              have hne : ds.head? ≠ some (octet '0') := by
                intro heq
                obtain rfl : b = octet '0' := Option.some.inj (hhead.symm.trans heq)
                exact hzero rfl
              exact ⟨_, by rw [hds, hs]; simp, .mk (.digits hdigits hne) hf hp⟩
          · cases h

/-! ### A number is taken whole -/

/-- Whether a power has a sign does not depend on what follows its digits. -/
theorem powerSign_append (hsign : PowerSign sign) (hds : Digits ds) :
    ∃ down, ∀ r, powerSign (sign ++ (ds ++ r)) = (down, ds ++ r) := by
  cases hsign with
  | none =>
      obtain ⟨b, ds, rfl, hb⟩ := hds.exists_cons
      refine ⟨false, ?_⟩
      intro r
      show powerSign (b :: (ds ++ r)) = (false, b :: (ds ++ r))
      unfold powerSign
      split
      · next h => cases h
      · next h =>
          cases h
          split
          · next hplus => rw [isDigit, hplus] at hb; cases hb
          · next hminus => rw [isDigit, hminus] at hb; cases hb
          · rfl
  | plus => exact ⟨false, fun _ => rfl⟩
  | minus => exact ⟨true, fun _ => rfl⟩

/-- A power is taken whole. -/
theorem power_append (hsign : PowerSign sign) (hds : Digits ds) (hr : NoDigit r) :
    Skipping.power (sign ++ (ds ++ r)) = .ok r := by
  obtain ⟨down, hdown⟩ := powerSign_append hsign hds
  obtain ⟨b, ds, rfl, hb⟩ := hds.exists_cons
  rw [Skipping.power, hdown]
  simp only [List.cons_append, hb, if_true, digits_tail hds hr]

/-- So it is with its letter, where nothing that could go on follows. -/
theorem numberEnd_append (hp : Power p) (hr : Stops r) : Skipping.numberEnd (p ++ r) = .ok r := by
  cases hp with
  | none =>
      cases r with
      | nil => rfl
      | cons b r =>
          obtain ⟨-, -, he, hE⟩ := hr b rfl
          show Skipping.numberEnd (b :: r) = _
          unfold Skipping.numberEnd
          split <;> simp_all
  | some he hsign hds =>
      have hpower := power_append hsign hds hr.noDigit
      rw [List.cons_append, List.append_assoc]
      rcases he with rfl | rfl <;> exact hpower

/-- A fraction and a power are taken whole. -/
theorem numberRest_append (hf : Fraction f) (hp : Power p) (hr : Stops r) :
    Skipping.numberRest (f ++ (p ++ r)) = .ok r := by
  cases hf with
  | none =>
      cases hp with
      | none =>
          cases r with
          | nil => rfl
          | cons b r =>
              obtain ⟨-, hpoint, he, hE⟩ := hr b rfl
              show Skipping.numberRest (b :: r) = _
              unfold Skipping.numberRest
              split <;> simp_all
      | some he hsign hds =>
          have hpower := power_append hsign hds hr.noDigit
          rw [List.nil_append, List.cons_append, List.append_assoc]
          rcases he with rfl | rfl <;> exact hpower
  | point hds =>
      have hdigits := digits_append hds (noDigit_power hp hr.noDigit)
      have hend := numberEnd_append hp hr
      show Skipping.fraction (_ ++ (p ++ r)) = _
      rw [Skipping.fraction, hdigits]
      obtain ⟨b, ds, rfl, -⟩ := hds.exists_cons
      exact hend

/-- **A number is passed over whole**, where nothing goes on with it. -/
theorem Unsigned.skip_append {x : Bytes} (h : Unsigned x) (hr : Stops r) :
    Skipping.number (x ++ r) = .ok r := by
  obtain ⟨hw, hf, hp⟩ := h
  rename_i w f p
  simp only [List.append_assoc]
  have hrest := numberRest_append hf hp hr
  have hnone := noDigit_fraction hf hp hr.noDigit
  cases hw with
  | zero =>
      show Skipping.number (octet '0' :: (f ++ (p ++ r))) = _
      cases hs : f ++ (p ++ r) with
      | nil => rw [hs] at hrest; exact hrest
      | cons b s =>
          rw [hs] at hrest hnone
          have hzero : glyph (octet '0') = '0' := rfl
          simpa [Skipping.number, hzero, hnone b rfl] using hrest
  | digits hds hzero =>
      obtain ⟨b, ds, rfl, hb⟩ := hds.exists_cons
      have hne : glyph b ≠ '0' := by
        intro h
        exact hzero (by rw [eq_octet h]; rfl)
      simpa only [List.cons_append, Skipping.number, if_neg hne, hb, if_true,
        digits_tail hds hnone] using hrest

/-! ### What a number is read to -/

variable {q : Parts} {r' : Bytes}

/-- The judgement on a number looks at nothing after it. -/
theorem verdict_toDecimal (r r' : Bytes) : (q.toDecimal r).verdict = (q.toDecimal r').verdict := by
  unfold Parts.toDecimal
  split <;> rfl

theorem verdict_toInteger (r r' : Bytes) : (q.toInteger r).verdict = (q.toInteger r').verdict := by
  unfold Parts.toInteger
  split
  · split
    · exact verdict_toDecimal r r'
    · rfl
  · rfl

/-- Nor does the reading of a power, if no digit follows. -/
theorem verdict_readPower (hsign : PowerSign sign) (hds : Digits ds) (hr : NoDigit r)
    (hr' : NoDigit r') :
    (q.readPower (sign ++ (ds ++ r))).verdict = (q.readPower (sign ++ (ds ++ r'))).verdict := by
  obtain ⟨down, hdown⟩ := powerSign_append hsign hds
  have hdigits := digits_append hds hr
  have hdigits' := digits_append hds hr'
  obtain ⟨b, ds, rfl, hb⟩ := hds.exists_cons
  simp only [List.cons_append] at hdown hdigits hdigits'
  simp only [Parts.readPower, List.cons_append, hdown, hb, if_true, hdigits, hdigits']
  split
  · exact verdict_toDecimal r r'
  · split <;> rfl

/-- From its power on, what a number comes to does not depend on what stops it. -/
theorem verdict_readEnd (hp : Power p) (hr : Stops r) (hr' : Stops r') :
    (q.readEnd (p ++ r)).verdict = (q.readEnd (p ++ r')).verdict := by
  have hnone : ∀ {r}, Stops r → q.readEnd r = q.toDecimal r := by
    intro r hr
    cases r with
    | nil => rfl
    | cons b r =>
        obtain ⟨-, -, he, hE⟩ := hr b rfl
        unfold Parts.readEnd
        split <;> simp_all
  cases hp with
  | none =>
      rw [List.nil_append, List.nil_append, hnone hr, hnone hr']
      exact verdict_toDecimal r r'
  | some he hsign hds =>
      have hpower := verdict_readPower (q := q) hsign hds hr.noDigit hr'.noDigit
      rw [List.cons_append, List.append_assoc, List.cons_append, List.append_assoc]
      rcases he with rfl | rfl <;> exact hpower

/-- Nor does it from its fraction on. -/
theorem verdict_readOn {whole : Bytes → Outcome Token}
    (hwhole : ∀ r r', (whole r).verdict = (whole r').verdict) (hf : Fraction f) (hp : Power p)
    (hr : Stops r) (hr' : Stops r') :
    (q.readOn (f ++ (p ++ r)) whole).verdict = (q.readOn (f ++ (p ++ r')) whole).verdict := by
  have hnone : ∀ {r}, Stops r → q.readOn r whole = whole r := by
    intro r hr
    cases r with
    | nil => rfl
    | cons b r =>
        obtain ⟨-, hpoint, he, hE⟩ := hr b rfl
        unfold Parts.readOn
        split <;> simp_all
  cases hf with
  | none =>
      simp only [List.nil_append]
      cases hp with
      | none =>
          rw [List.nil_append, List.nil_append, hnone hr, hnone hr']
          exact hwhole r r'
      | some he hsign hds =>
          have hpower := verdict_readPower (q := q) hsign hds hr.noDigit hr'.noDigit
          rw [List.cons_append, List.append_assoc, List.cons_append, List.append_assoc]
          rcases he with rfl | rfl <;> exact hpower
  | point hds =>
      have hdigits := digits_append hds (noDigit_power hp hr.noDigit)
      have hdigits' := digits_append hds (noDigit_power hp hr'.noDigit)
      show (q.readFraction (_ ++ (p ++ r))).verdict = (q.readFraction (_ ++ (p ++ r'))).verdict
      rw [Parts.readFraction, hdigits, Parts.readFraction, hdigits']
      obtain ⟨b, ds, rfl, -⟩ := hds.exists_cons
      exact verdict_readEnd hp hr hr'

/-- **What a number is read to does not hang on what follows it.** -/
theorem Unsigned.verdict_read {negative : Bool} {x : Bytes} (h : Unsigned x) (hr : Stops r)
    (hr' : Stops r') :
    (read negative (x ++ r)).verdict = (read negative (x ++ r')).verdict := by
  obtain ⟨hw, hf, hp⟩ := h
  simp only [List.append_assoc]
  have hnone := noDigit_fraction hf hp hr.noDigit
  have hnone' := noDigit_fraction hf hp hr'.noDigit
  cases hw with
  | zero =>
      have hzero : ∀ s, NoDigit s → read negative (octet '0' :: s) =
          Parts.readOn ⟨negative, 0, 0⟩ s (Parts.toInteger ⟨negative, 0, 0⟩) := by
        intro s hs
        cases s with
        | nil => rfl
        | cons b s =>
            have hglyph : glyph (octet '0') = '0' := rfl
            simp [read, hglyph, hs b rfl]
      rw [List.singleton_append, List.singleton_append, hzero _ hnone, hzero _ hnone']
      exact verdict_readOn verdict_toInteger hf hp hr hr'
  | digits hds hzero =>
      have hdigits := digits_append hds hnone
      have hdigits' := digits_append hds hnone'
      obtain ⟨b, ds, rfl, hb⟩ := hds.exists_cons
      have hne : glyph b ≠ '0' := by
        intro h
        exact hzero (by rw [eq_octet h]; rfl)
      simp only [List.cons_append] at hdigits hdigits'
      simp only [List.cons_append, read, if_neg hne, hb, if_true, hdigits, hdigits']
      refine verdict_readOn ?_ hf hp hr hr'
      intro s s'
      split
      · exact verdict_toInteger s s'
      · exact verdict_toDecimal s s'

end Number

end InterfaceSchema.Json
