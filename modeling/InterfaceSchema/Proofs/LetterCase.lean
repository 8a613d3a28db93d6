import InterfaceSchema.Idl.BaseType
import InterfaceSchema.Text.LetterCase

/-!
# Small letters of ASCII texts

The tables of letter case are long, but the first run of capitals is that of ASCII, and no other
run begins below it.  So an ASCII text has the small letters that one expects (`lower_of_ascii`),
and so have the names of the base types.
-/

namespace InterfaceSchema
namespace Text

/-- The capitals of ASCII come first, and all others after ASCII. -/
theorem capitalRuns_toList :
    ∃ others, capitalRuns.toList = ⟨0x41, 0x5a, 1, 32⟩ :: others ∧ ∀ r ∈ others, 0x80 ≤ r.first :=
  ⟨_, rfl, by decide +kernel⟩

theorem toLower_of_capital {c : Char} (h : 0x41 ≤ c.toNat ∧ c.toNat ≤ 0x5a) :
    c.toLower = Char.ofNat (c.toNat + 32) := by
  have hval : c.val ≥ 'A'.val ∧ c.val ≤ 'Z'.val := h
  have hle : c.val.toNat ≤ 0x5a := h.2
  obtain ⟨hvalid, hlower⟩ : ∃ hvalid, c.toLower = ⟨c.val + 32, hvalid⟩ := ⟨_, dif_pos hval⟩
  rw [← Char.ofNat_toNat c.toLower, hlower]
  refine congrArg Char.ofNat ?_
  show (c.val + 32).toNat = c.val.toNat + 32
  rw [UInt32.toNat_add, Nat.mod_eq_of_lt]
  · rfl
  · show c.val.toNat + 32 < _
    omega

theorem smallForm_of_ascii {c : Char} (h : c.toNat < 0x80) : smallForm c = [c.toLower] := by
  obtain ⟨others, hruns, hothers⟩ := capitalRuns_toList
  have hnone : others.findSome? (·.small? c.toNat) = none := by
    refine List.findSome?_eq_none_iff.2 fun r hr => if_neg fun hin => ?_
    have hfirst := hothers r hr
    omega
  have hdotted : c ≠ '\u0130' := by
    rintro rfl
    exact absurd h (by decide)
  rw [smallForm, if_neg hdotted, ← Array.findSome?_toList, hruns, List.findSome?_cons, hnone]
  by_cases hc : 0x41 ≤ c.toNat ∧ c.toNat ≤ 0x5a
  · rw [CapitalRun.small?, if_pos ⟨hc.1, hc.2, Nat.mod_one _⟩, toLower_of_capital hc]
    rfl
  · have hsame : c.toLower = c := dif_neg hc
    rw [CapitalRun.small?, if_neg (fun hin => hc ⟨hin.1, hin.2.1⟩), hsame]
    rfl

theorem lowerAfter_of_ascii {cs : List Char} (h : ∀ c ∈ cs, c.toNat < 0x80) (before : List Char) :
    lowerAfter before cs = cs.map Char.toLower := by
  induction cs generalizing before with
  | nil => rfl
  | cons c cs ih =>
      have hc := h c List.mem_cons_self
      have hsigma : c ≠ 'Σ' := by
        rintro rfl
        exact absurd hc (by decide)
      rw [lowerAfter, if_neg hsigma, smallForm_of_ascii hc,
        ih fun c hc => h c (List.mem_cons_of_mem _ hc)]
      rfl

/-- **The small-letter form of an ASCII text** is that of its letters one by one. -/
theorem lower_of_ascii {s : String} (h : ∀ c ∈ s.toList, c.toNat < 0x80) :
    lower s = .ofList (s.toList.map Char.toLower) := by
  rw [lower, lowerAfter_of_ascii h]

end Text

theorem BaseType.lower_name (b : BaseType) :
    Text.lower b.name = .ofList (b.name.toList.map Char.toLower) := by
  have hascii : (b.name.toList.all fun c => c.toNat < 0x80) = true := by cases b <;> rfl
  exact Text.lower_of_ascii (by simpa using hascii)

/-- Only the array is called `array` in small letters. -/
theorem BaseType.lower_name_eq_array_iff {b : BaseType} :
    Text.lower b.name = "array" ↔ b = .array := by
  rw [lower_name]
  cases b <;> decide

/-- No base type is called `integer` in small letters. -/
theorem BaseType.lower_name_ne_integer (b : BaseType) : Text.lower b.name ≠ "integer" := by
  rw [lower_name]
  cases b <;> decide

end InterfaceSchema
