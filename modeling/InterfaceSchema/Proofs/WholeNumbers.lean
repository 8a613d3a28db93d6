import InterfaceSchema.Json.Printer
import InterfaceSchema.Proofs.Scalars
import InterfaceSchema.Proofs.Utf8

/-!
# Whole numbers, written and read

A whole number is written by its digits alone, without zeros in front, and 64 bits are enough to
read it back.

* `isScalar_integerText`: what is written is a number.
* `read_integerText`: it is read to the number that was written.
-/

namespace InterfaceSchema.Json

open InterfaceSchema.Text (Bytes)

theorem lt_of_isDigit {c : Char} (h : c.isDigit = true) : c.toNat < 0x80 := by
  have hc : c.toNat ≤ '9'.toNat := (Char.isDigit_iff_toNat.1 h).2
  exact Nat.lt_of_le_of_lt hc (by decide)

namespace Number

/-- Whole numbers of 64 bits, with a sign or without. -/
def Held (n : Int) : Prop := Int64.minValue.toInt ≤ n ∧ n < UInt64.size

instance (n : Int) : Decidable (Held n) := inferInstanceAs (Decidable (_ ∧ _))

/-- The octets of the digits of a number. -/
def wholeDigits (n : Nat) : Bytes := (Nat.toDigits 10 n).map octet

/-- Decimal digits are digits. -/
theorem isDigit_of_mem_toDigits {n : Nat} {c : Char} (hc : c ∈ Nat.toDigits 10 n) :
    c.isDigit = true :=
  Nat.isDigit_of_mem_toDigits (by decide) (by decide) hc

theorem digits_wholeDigits (n : Nat) : Digits (wholeDigits n) := by
  constructor
  · simp [wholeDigits, Nat.toDigits_ne_nil]
  · intro b hb
    obtain ⟨c, hc, rfl⟩ := List.mem_map.1 hb
    have hdigit := isDigit_of_mem_toDigits hc
    rw [Json.isDigit, glyph_octet (lt_of_isDigit hdigit), hdigit]

/-- No zero comes first, but for the number zero. -/
theorem head?_toDigits_ne {n : Nat} (hn : n ≠ 0) : (Nat.toDigits 10 n).head? ≠ some '0' := by
  induction n using Nat.strongRecOn with
  | ind n ih =>
      by_cases hsmall : n < 10
      · rw [Nat.toDigits_of_lt_base hsmall]
        match n with
        | 1 | 2 | 3 | 4 | 5 | 6 | 7 | 8 | 9 => decide
      · have hrest := ih (n / 10) (by omega) (by omega)
        have hdigits : Nat.toDigits 10 (n / 10) ≠ [] := Nat.toDigits_ne_nil
        obtain ⟨c, cs, hcs⟩ := List.exists_cons_of_ne_nil hdigits
        rw [Nat.toDigits_of_base_le (by decide) (by omega), hcs]
        rw [hcs] at hrest
        exact hrest

/-- No number is written with a zero in front. -/
theorem whole_wholeDigits (n : Nat) : Whole (wholeDigits n) := by
  by_cases hn : n = 0
  · subst hn
    exact .zero
  · refine .digits (digits_wholeDigits n) ?_
    intro hhead
    rw [wholeDigits, List.head?_map] at hhead
    obtain ⟨c, hc, hzero⟩ := Option.map_eq_some_iff.1 hhead
    have hdigit := isDigit_of_mem_toDigits (List.mem_of_mem_head? hc)
    have hglyph := congrArg glyph hzero
    rw [glyph_octet (lt_of_isDigit hdigit)] at hglyph
    exact head?_toDigits_ne hn (hc.trans (congrArg some hglyph))

theorem unsigned_wholeDigits (n : Nat) : Unsigned (wholeDigits n) := by
  have h := Unsigned.mk (whole_wholeDigits n) .none .none
  simpa using h

/-! ### What the digits come to -/

/-- The number that digits make after those of `n`. -/
def ofDigits (n : Nat) (ds : List Nat) : Nat := ds.foldl (fun n d => n * 10 + d) n

/-- More digits make no smaller number. -/
theorem le_ofDigits (n : Nat) (ds : List Nat) : n ≤ ofDigits n ds := by
  induction ds generalizing n with
  | nil => exact Nat.le_refl n
  | cons d ds ih => exact Nat.le_trans (by omega) (ih (n * 10 + d))

/-- A number within the limit takes all of its digits. -/
theorem fit_of_le {limit n : Nat} {ds : List Nat} (h : ofDigits n ds ≤ limit) :
    fit limit n ds = (ofDigits n ds, []) := by
  induction ds generalizing n with
  | nil => rfl
  | cons d ds ih =>
      have hd : n * 10 + d ≤ limit := Nat.le_trans (le_ofDigits _ ds) h
      rw [fit, if_pos hd]
      exact ih h

/-- **The digits of a number spell it.** -/
theorem ofDigits_wholeDigits (n : Nat) : ofDigits 0 (values (wholeDigits n)) = n := by
  have hvalues : ∀ (cs : List Char) (init : Nat), (∀ c ∈ cs, c.isDigit = true) →
      ofDigits init (values (cs.map octet)) = Nat.ofDigitChars 10 cs init := by
    intro cs
    induction cs with
    | nil => exact fun _ _ => rfl
    | cons c cs ih =>
        intro init hcs
        have hc := lt_of_isDigit (hcs c List.mem_cons_self)
        have hlater := ih (init * 10 + (c.toNat - '0'.toNat))
          fun c' hc' => hcs c' (List.mem_cons_of_mem c hc')
        rw [Nat.ofDigitChars_cons, Nat.mul_comm, ← hlater]
        simp [values, ofDigits, glyph_octet hc]
  rw [wholeDigits, hvalues _ 0 fun c => isDigit_of_mem_toDigits,
    Nat.ofDigitChars_toDigits (by decide) (by decide)]

/-- The digits of a number that fits are read to it. -/
theorem read_wholeDigits {negative : Bool} {n : Nat} (hn : n < UInt64.size) :
    read negative (wholeDigits n) = Parts.toInteger ⟨negative, n, 0⟩ [] := by
  have hdigits := digits_append (r := []) (digits_wholeDigits n) (by intro b hb; cases hb)
  have hfit : fit maxSignificand 0 (values (wholeDigits n)) = (n, []) := by
    rw [fit_of_le] <;> rw [ofDigits_wholeDigits]
    exact Nat.le_sub_one_of_lt hn
  rw [List.append_nil] at hdigits
  have hwhole := whole_wholeDigits n
  generalize wholeDigits n = ds at hdigits hfit hwhole
  cases hwhole with
  | zero =>
      cases hfit
      rfl
  | digits hds hzero =>
      obtain ⟨b, ds, rfl, hb⟩ := hds.exists_cons
      have hne : glyph b ≠ '0' := fun h => hzero (by rw [eq_octet h]; rfl)
      simp only [read, if_neg hne, if_pos hb, hdigits, hfit]
      rfl

end Number

/-! ### Whole numbers -/

theorem lt_of_mem_integerText {n : Int} {c : Char} (hc : c ∈ integerText n) : c.toNat < 0x80 := by
  have hdigits : ∀ {c}, c ∈ Nat.toDigits 10 n.natAbs → c.toNat < 0x80 := fun hc =>
    lt_of_isDigit (Number.isDigit_of_mem_toDigits hc)
  unfold integerText at hc
  split at hc
  · rcases List.mem_cons.1 hc with rfl | hc
    · decide
    · exact hdigits hc
  · exact hdigits hc

/-- A whole number is written with a minus sign before its digits, if it is negative. -/
theorem encode_integerText (n : Int) : Text.Utf8.encode (integerText n) =
    if n < 0 then octet '-' :: Number.wholeDigits n.natAbs else Number.wholeDigits n.natAbs := by
  rw [Text.Utf8.encode_eq_map fun c => lt_of_mem_integerText, integerText]
  split <;> rfl

/-- **What is written for a whole number is a number.** -/
theorem isScalar_integerText (n : Int) : IsScalar (Text.Utf8.encode (integerText n)) := by
  rw [encode_integerText]
  split
  · exact .negative (Number.unsigned_wholeDigits n.natAbs)
  · exact .number (Number.unsigned_wholeDigits n.natAbs)

/-- **A whole number of 64 bits is read to what was written.** -/
theorem read_integerText {n : Int} (hn : Number.Held n) :
    Token.read (Text.Utf8.encode (integerText n)) = .ok (.integer n, []) := by
  obtain ⟨hlow, hhigh⟩ := hn
  have hleast : Int64.minValue.toInt = -9223372036854775808 := rfl
  have hsize : UInt64.size = 18446744073709551616 := rfl
  rw [encode_integerText]
  split
  · next hneg =>
      show Number.read true (Number.wholeDigits n.natAbs) = _
      rw [Number.read_wholeDigits (by omega), Number.Parts.toInteger, if_pos rfl, if_neg]
      · have hn : -(n.natAbs : Int) = n := by omega
        show Except.ok (Token.integer (-(n.natAbs : Int)), []) = _
        rw [hn]
      · have hpow : Nat.pow 2 63 = 9223372036854775808 := rfl
        show ¬ (n.natAbs = 0 ∨ Nat.pow 2 63 < n.natAbs)
        omega
  · next hneg =>
      obtain ⟨b, s, hs, hb⟩ := (Number.unsigned_wholeDigits n.natAbs).exists_cons
      have hread : Number.read false (Number.wholeDigits n.natAbs) =
          Number.Parts.toInteger ⟨false, n.natAbs, 0⟩ [] := Number.read_wholeDigits (by omega)
      rw [hs] at hread
      rw [hs, read_of_digit hb, hread, Number.Parts.toInteger, if_neg Bool.false_ne_true]
      have hn : (n.natAbs : Int) = n := by omega
      show Except.ok (Token.integer (n.natAbs : Int), []) = _
      rw [hn]

end InterfaceSchema.Json
