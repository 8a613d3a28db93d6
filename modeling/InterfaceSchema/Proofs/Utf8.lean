import Mathlib.Tactic.SplitIfs
import InterfaceSchema.Text.Utf8

/-!
# UTF-8, there and back

* `decode_eq_ok_iff`: octets decode to characters exactly when they are what spells these.
* `mem_encode_iff`: an octet of ASCII stands in a text only as the character that it is.
-/

namespace InterfaceSchema.Text.Utf8

/-! ### One character -/

/-- The data bits of a spelling are those of the code point. -/
theorem codePoint_encodeChar_append (c : Char) (rest : Bytes) :
    codePoint (String.utf8EncodeChar c ++ rest) = c.toNat := by
  have hlt : c.val.toNat < 0x110000 := by
    rcases c.valid with h | ⟨-, h⟩
    · exact Nat.lt_trans h (by decide)
    · exact h
  show _ = c.val.toNat
  simp only [String.utf8EncodeChar]
  generalize c.val.toNat = v at hlt ⊢
  -- one case for each length of spelling
  split_ifs
  all_goals
    simp only [codePoint, List.cons_append, List.getD_cons_zero, List.getD_cons_succ,
      UInt8.toNat_ofNat']
  · rw [if_pos] <;> omega
  · rw [if_neg, if_pos] <;> omega
  · rw [if_neg, if_neg, if_pos] <;> omega
  · rw [if_neg, if_neg, if_neg] <;> omega

/-- The character spelled in front is found. -/
theorem first?_encodeChar_append (c : Char) (rest : Bytes) :
    first? (String.utf8EncodeChar c ++ rest) = some (c, rest) := by
  have hc : Char.ofNat (codePoint (String.utf8EncodeChar c ++ rest)) = c := by
    rw [codePoint_encodeChar_append, Char.ofNat_toNat]
  have hlength : c.utf8Size = (String.utf8EncodeChar c).length :=
    (String.length_utf8EncodeChar c).symm
  simp only [first?, hc, hlength, List.take_left, List.drop_left, if_true]

/-- An octet of ASCII is not part of a longer spelling. -/
theorem mem_encodeChar_iff {b : UInt8} (hb : b.toNat < 0x80) {c : Char} :
    b ∈ String.utf8EncodeChar c ↔ c.toNat = b.toNat := by
  show _ ↔ c.val.toNat = _
  simp only [String.utf8EncodeChar]
  generalize c.val.toNat = v
  split_ifs <;>
    simp only [List.mem_cons, List.not_mem_nil, or_false, ← UInt8.toNat_inj,
      UInt8.toNat_ofNat'] <;>
    omega

/-! ### Texts -/

theorem encode_cons (c : Char) (cs : List Char) :
    encode (c :: cs) = String.utf8EncodeChar c ++ encode cs :=
  List.flatMap_cons

theorem encode_append (cs ds : List Char) : encode (cs ++ ds) = encode cs ++ encode ds :=
  List.flatMap_append

/-- A character of ASCII is spelled by one octet. -/
theorem encode_cons_of_lt {c : Char} (hc : c.toNat < 0x80) (cs : List Char) :
    encode (c :: cs) = c.toUInt8 :: encode cs := by
  have hchar : String.utf8EncodeChar c = [c.toUInt8] := by
    rw [String.utf8EncodeChar, if_pos (show c.val.toNat ≤ 0x7f from Nat.le_of_lt_succ hc)]
    rfl
  rw [encode_cons, hchar, List.singleton_append]

theorem encode_eq_map {cs : List Char} (h : ∀ c ∈ cs, c.toNat < 0x80) :
    encode cs = cs.map Char.toUInt8 := by
  induction cs with
  | nil => rfl
  | cons c cs ih =>
      rw [encode_cons_of_lt (h c List.mem_cons_self),
        ih fun c' hc' => h c' (List.mem_cons_of_mem c hc'), List.map_cons]

theorem length_encode_cons (c : Char) (cs : List Char) :
    (encode (c :: cs)).length = c.utf8Size + (encode cs).length := by
  rw [encode_cons, List.length_append, String.length_utf8EncodeChar]

theorem length_encode_append (cs ds : List Char) :
    (encode (cs ++ ds)).length = (encode cs).length + (encode ds).length := by
  rw [encode, List.flatMap_append, List.length_append]
  rfl

/-- **An octet of ASCII stands in a text only as the character that it is.** -/
theorem mem_encode_iff {b : UInt8} (hb : b.toNat < 0x80) {cs : List Char} :
    b ∈ encode cs ↔ ∃ c ∈ cs, c.toNat = b.toNat := by
  simp only [encode, List.mem_flatMap, mem_encodeChar_iff hb]

/-- An octet of ASCII that comes last is the last character. -/
theorem toNat_of_getLast?_encode {b : UInt8} (hb : b.toNat < 0x80) {cs : List Char} {c : Char}
    (h : (encode (cs ++ [c])).getLast? = some b) : c.toNat = b.toNat := by
  have hlast : String.utf8EncodeChar c ≠ [] := by
    intro hnil
    have hlength := String.length_utf8EncodeChar c
    rw [hnil] at hlength
    exact absurd hlength.symm (Nat.ne_of_gt c.utf8Size_pos)
  have hnil : encode [] = [] := rfl
  rw [encode_append, encode_cons, hnil, List.append_nil, List.getLast?_append,
    List.getLast?_eq_some_getLast hlast, Option.some_or, ← List.getLast?_eq_some_getLast] at h
  exact (mem_encodeChar_iff hb).1 (List.mem_of_getLast? h)

theorem decodeFrom_of_first? {read : List Char} {bs rest : Bytes} {c : Char}
    (h : first? bs = some (c, rest)) : decodeFrom read bs = decodeFrom (c :: read) rest := by
  cases bs with
  | nil => exact absurd (length_of_first? h) (Nat.not_lt_zero _)
  | cons b bs =>
      rw [decodeFrom]
      split
      · next h' => cases h.symm.trans h'; rfl
      · next h' => cases h.symm.trans h'

theorem decodeFrom_encode (read cs : List Char) :
    decodeFrom read (encode cs) = .ok (read.reverse ++ cs) := by
  induction cs generalizing read with
  | nil => rw [show encode [] = [] from rfl, decodeFrom, List.append_nil]
  | cons c cs ih =>
      rw [encode_cons, decodeFrom_of_first? (first?_encodeChar_append c _), ih,
        List.reverse_cons, List.append_assoc, List.singleton_append]

theorem encode_of_decodeFrom {read cs : List Char} {bs : Bytes} (h : decodeFrom read bs = .ok cs) :
    ∃ ds, cs = read.reverse ++ ds ∧ bs = encode ds := by
  fun_induction decodeFrom read bs with
  | case1 read =>
      cases h
      exact ⟨[], by simp, rfl⟩
  | case2 read b bs c rest hfirst ih =>
      obtain ⟨ds, rfl, rfl⟩ := ih h
      exact ⟨c :: ds, by simp, by rw [eq_encodeChar_append hfirst, encode_cons]⟩
  | case3 => cases h

/-- **Octets decode to characters exactly when they spell them.** -/
theorem decode_eq_ok_iff {bs : Bytes} {cs : List Char} : decode bs = .ok cs ↔ bs = encode cs := by
  constructor
  · intro h
    obtain ⟨ds, hcs, hbs⟩ := encode_of_decodeFrom h
    rw [hbs, hcs]
    rfl
  · rintro rfl
    exact decodeFrom_encode [] cs

end InterfaceSchema.Text.Utf8
