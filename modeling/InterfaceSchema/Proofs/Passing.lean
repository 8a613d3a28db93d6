import InterfaceSchema.Proofs.Layout

/-!
# What is passed over is a value

A scan passes over a value without looking into its literals.  It goes by the brackets that are
open, not by the value, and so does the induction here: at every stage the scan has before it the
rest of a value or of a bracket (`Tree.Continues`), and then what closes the brackets around.

* `continues_of_scan`: so it is at every stage.
* `skip_eq_ok_iff`: the texts that can be passed over are those that start with a value.
-/

namespace InterfaceSchema.Json
open InterfaceSchema.Text (Bytes)

namespace Skipping
variable {s r : Bytes} {b : UInt8}

/-- A key that is passed over stands after its quotation mark. -/
theorem exists_afterKey?_of_key (h : key s = .ok r) :
    ∃ q, Tree.quoteAt? s = some q ∧ Tree.afterKey? (Literal.read q).verdict q = some r := by
  unfold key at h
  split at h
  · cases h
  · next b q hs =>
      split at h
      · next hb =>
          split at h
          · cases h
          · next q' hskip =>
              exact ⟨q, Tree.quoteAt?_eq_some_iff.2 ⟨b, hs, hb⟩,
                Tree.afterKey?_eq_some_iff.2 ⟨q', hskip, rfl, h⟩⟩
      · cases h

end Skipping

namespace Reader
variable {s r : Bytes} {b : UInt8}

/-- At the closing bracket a list is done, also where a first item could stand. -/
theorem nextItem_of_close {first : Bool} (hs : skipBlanks s = b :: r) (hb : glyph b = ']') :
    nextItem first s = .ok (.done r) := by
  simp only [nextItem, hs, if_pos hb]

theorem nextKey_of_close {first : Bool} (hs : skipBlanks s = b :: r) (hb : glyph b = '\x7d') :
    nextKey first s = .ok (.done r) := by
  simp only [nextKey, hs, if_pos hb]

/-- The first item of a list stands where the bracket leaves off. -/
theorem nextItem_of_first (hs : skipBlanks s = b :: r) (hb : glyph b ≠ ']') :
    nextItem true s = .ok (.more () (b :: r)) := by
  simp only [nextItem, hs, if_neg hb, if_true]

/-- Every other item stands behind a comma. -/
theorem nextItem_of_comma {b' : UInt8} {r' : Bytes} (hs : skipBlanks s = b :: r)
    (hb : glyph b = ',') (hr : skipBlanks r = b' :: r') (hb' : glyph b' ≠ ']') :
    nextItem false s = .ok (.more () (b' :: r')) := by
  simp [nextItem, hs, hb, hr, hb']

end Reader

namespace Tree
open Skipping (scan Stage)
variable {first : Bool} {s r rest : Bytes} {b : UInt8}

theorem after?_list {vs : List Tree} (hs : skipBlanks s = b :: r) (hb : glyph b = '[') :
    (list vs).after? s = afterItems? true vs r := by
  simp only [after?, hs, if_pos hb]

theorem after?_object {ms : List (Except Flaw String × Tree)} (hs : skipBlanks s = b :: r)
    (hb : glyph b = '\x7b') : (object ms).after? s = afterMembers? true ms r := by
  simp only [after?, hs, if_pos hb]

/-- A scalar that can be passed over starts the text, whatever a reader makes of it. -/
theorem after?_scalar (hs : skipBlanks s = b :: r) (h : Skipping.scalar b r = .ok rest) :
    (scalar (Token.read s).verdict).after? s = some rest := by
  simp only [after?, hs, if_true, h]
  rfl

theorem afterItems?_nil (h : Reader.nextItem first s = .ok (.done r)) :
    afterItems? first [] s = some r := by
  simp only [afterItems?, h]

/-- One item more in front of those that follow. -/
theorem afterItems?_cons {v : Tree} {vs : List Tree}
    (h : Reader.nextItem first s = .ok (.more () r)) (hv : v.after? r = some rest) :
    afterItems? first (v :: vs) s = afterItems? false vs rest := by
  simp only [afterItems?, h, hv]

theorem afterMembers?_nil (h : Reader.nextKey first s = .ok (.done r)) :
    afterMembers? first [] s = some r := by
  simp only [afterMembers?, h]

/-- One member more in front of those that follow, whatever a reader makes of its key. -/
theorem afterMembers?_cons {v : Tree} {ms : List (Except Flaw String × Tree)} {q : Bytes}
    (hq : keyAt? first s = some q) (hkey : afterKey? (Literal.read q).verdict q = some r)
    (hv : v.after? r = some rest) :
    afterMembers? first (((Literal.read q).verdict, v) :: ms) s = afterMembers? false ms rest := by
  simp only [afterMembers?, hq, Option.bind_some, hkey, hv]

/-- The brackets that are open are closed by what stands here, and then `rest` follows. -/
def Closes (rest : Bytes) : List Bracket → Bytes → Prop
  | [], s => s = rest
  | .list :: outer, s => ∃ vs r, afterItems? false vs s = some r ∧ Closes rest outer r
  | .object :: outer, s => ∃ ms r, afterMembers? false ms s = some r ∧ Closes rest outer r

/-- What a scan at the stage has before it, and then the closing of the brackets around. -/
def Continues (rest : Bytes) (stack : List Bracket) (s : Bytes) : Stage → Prop
  | .value => ∃ v r, after? v s = some r ∧ Closes rest stack r
  | .opened .list => ∃ vs r, afterItems? true vs s = some r ∧ Closes rest stack r
  | .opened .object => ∃ ms r, afterMembers? true ms s = some r ∧ Closes rest stack r
  | .passed => Closes rest stack s

/-- **What is passed over is a value**, or what is left of the brackets around it. -/
theorem continues_of_scan {stage : Stage} {stack : List Bracket}
    (h : scan stage stack s = .ok rest) : Continues rest stack s stage := by
  fun_induction scan stage stack s with
  | case1 | case4 | case6 | case9 | case12 | case14 | case17 => cases h
  | case11 => cases h; exact rfl
  | case2 stack s b s' hs hb ih =>
      obtain ⟨vs, r, hvs, hr⟩ := ih h
      exact ⟨.list vs, r, (after?_list hs hb).trans hvs, hr⟩
  | case3 stack s b s' hs _ hb ih =>
      obtain ⟨ms, r, hms, hr⟩ := ih h
      exact ⟨.object ms, r, (after?_object hs hb).trans hms, hr⟩
  | case5 stack s b s' hs _ _ r hp ih =>
      exact ⟨.scalar (Token.read s).verdict, r, after?_scalar hs hp, ih h⟩
  | case7 stack s bracket b s' hs hb ih =>
      cases bracket with
      | list => exact ⟨[], s', afterItems?_nil (Reader.nextItem_of_close hs hb), ih h⟩
      | object => exact ⟨[], s', afterMembers?_nil (Reader.nextKey_of_close hs hb), ih h⟩
  | case8 stack s b s' hs hb ih =>
      obtain ⟨v, r, hv, vs, r', hvs, hr⟩ := ih h
      exact ⟨v :: vs, r', (afterItems?_cons (Reader.nextItem_of_first hs hb) hv).trans hvs, hr⟩
  | case10 stack s b s' hs r hp _ ih =>
      obtain ⟨v, r', hv, ms, r'', hms, hr⟩ := ih h
      obtain ⟨q, hq, hkey⟩ := Skipping.exists_afterKey?_of_key hp
      have hfirst : keyAt? true s = some q := by
        simpa [keyAt?, quoteAt?, hs, skipBlanks_of_eq hs] using hq
      exact ⟨_ :: ms, r'', (afterMembers?_cons hfirst hkey hv).trans hms, hr⟩
  | case13 s outer b s' hs hb ih =>
      obtain ⟨v, r, hv, vs, r', hvs, hr⟩ := ih h
      obtain ⟨b', s'', hs', hb', -, hv'⟩ := exists_skipBlanks_of_after? hv
      exact ⟨v :: vs, r',
        (afterItems?_cons (Reader.nextItem_of_comma hs hb hs' hb') hv').trans hvs, hr⟩
  | case15 s outer b s' hs hb r hp ih =>
      obtain ⟨v, r', hv, ms, r'', hms, hr⟩ := ih h
      obtain ⟨q, hq, hkey⟩ := Skipping.exists_afterKey?_of_key hp
      have hlater : keyAt? false s = some q := by
        simpa [keyAt?, hs, hb] using hq
      exact ⟨_ :: ms, r'', (afterMembers?_cons hlater hkey hv).trans hms, hr⟩
  | case16 s bracket outer b s' hs _ hb ih =>
      cases bracket with
      | list => exact ⟨[], s', afterItems?_nil (Reader.nextItem_of_close hs hb), ih h⟩
      | object => exact ⟨[], s', afterMembers?_nil (Reader.nextKey_of_close hs hb), ih h⟩

/-- **Every text that can be passed over starts with a value**, and no other does. -/
theorem skip_eq_ok_iff :
    Reader.skip.run s = .ok ((), rest) ↔ ∃ v : Tree, v.after? s = some rest := by
  have hrun : Reader.skip.run s = .ok ((), rest) ↔ scan .value [] s = .ok rest := by
    cases hscan : scan .value [] s <;> simp [Reader.skip, hscan]
  rw [hrun]
  constructor
  · intro h
    obtain ⟨v, r, hv, rfl⟩ := continues_of_scan h
    exact ⟨v, hv⟩
  · rintro ⟨v, hv⟩
    rw [scan_of_after? hv, scan]

end Tree
end InterfaceSchema.Json
