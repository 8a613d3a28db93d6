import InterfaceSchema.Proofs.Literals
import InterfaceSchema.Proofs.WholeNumbers

/-!
# What is printed is JSON

A printed value is laid out as the grammar has it, with the value's own outline: the printer
spells texts with as few escapes as the grammar allows, and numbers by their digits.

* `Literal.spells_chars`: a printed text is spelled.
* `laid_prettyChars`: a value over lines is laid out at every level.
* `isText_render`: a printed file is a JSON text.
* `shown_prettyChars`: no control character is printed but line ends.
-/

namespace InterfaceSchema.Json

open InterfaceSchema.Text (Bytes)
open Text.Utf8 (encode encode_append encode_cons)

/-- A mark is an octet of its own. -/
theorem encode_mark {c : Char} (hc : c.toNat < 0x80) (cs : List Char) :
    encode (c :: cs) = octet c :: encode cs :=
  Text.Utf8.encode_cons_of_lt hc cs

/-! ### String literals -/

namespace Literal

/-- Hexadecimal digits are read to what they were written for. -/
theorem hexDigit?_digitChar {d : Nat} (hd : d < 16) :
    hexDigit? (octet (Nat.digitChar d)) = some d := by
  revert d
  decide

/-- Four hexadecimal digits are enough for every number below `0x10000`. -/
theorem hex4_of_lt {n : Nat} (hn : n < 0x10000) : Hex4 n ((hex4 n).map octet) := by
  have h := Hex4.mk (hexDigit?_digitChar (Nat.mod_lt (n / 4096) (by decide)))
    (hexDigit?_digitChar (Nat.mod_lt (n / 256) (by decide)))
    (hexDigit?_digitChar (Nat.mod_lt (n / 16) (by decide)))
    (hexDigit?_digitChar (Nat.mod_lt n (by decide)))
  have hvalue : ((n / 4096 % 16 * 16 + n / 256 % 16) * 16 + n / 16 % 16) * 16 + n % 16 = n := by
    omega
  rw [hvalue] at h
  exact h

theorem lt_of_digitChar (n : Nat) : (Nat.digitChar (n % 16)).toNat < 0x80 := by
  have h : ∀ d < 16, (Nat.digitChar d).toNat < 0x80 := by decide
  exact h _ (Nat.mod_lt n (by decide))

/-- A printed character is spelled, by the escape with a letter if it has one. -/
theorem Spells.char {cs : List Char} {x : Bytes} (c : Char) (h : Spells cs x) :
    Spells (c :: cs) (encode (Literal.char c) ++ x) := by
  unfold Literal.char
  split
  · exact .letter (b := octet '"') rfl h
  · exact .letter (b := octet '\\') rfl h
  · exact .letter (b := octet 'b') rfl h
  · exact .letter (b := octet 'f') rfl h
  · exact .letter (b := octet 'n') rfl h
  · exact .letter (b := octet 'r') rfl h
  · exact .letter (b := octet 't') rfl h
  · next hquote hescape _ _ _ _ _ =>
      split
      · next hcontrol =>
          have hascii : ∀ c' ∈ '\\' :: 'u' :: hex4 c.toNat, c'.toNat < 0x80 := by
            simp [hex4, lt_of_digitChar]
          have hunit := hex4_of_lt (n := c.toNat) (by omega)
          have hnone : isHighSurrogate c.toNat = false ∧ isLowSurrogate c.toNat = false := by
            simp only [isHighSurrogate, isLowSurrogate, Bool.and_eq_false_iff,
              decide_eq_false_iff_not]
            omega
          have hspells := Spells.unit hunit hnone.1 hnone.2 h
          rw [Char.ofNat_toNat] at hspells
          rw [Text.Utf8.encode_eq_map hascii]
          exact hspells
      · next hplain =>
          have hspells := Spells.plain (by omega) hquote hescape h
          rwa [← List.append_nil (String.utf8EncodeChar c)] at hspells

/-- **A printed text is spelled** between its quotation marks. -/
theorem spells_chars (cs : List Char) : Spells cs (encode (cs.flatMap Literal.char)) := by
  induction cs with
  | nil => exact .nil
  | cons c cs ih =>
      rw [List.flatMap_cons, encode_append]
      exact .char c ih

/-- The octets of a text between quotation marks, as it is printed. -/
def body (t : String) : Bytes := encode (t.toList.flatMap Literal.char)

/-- A literal is its body between quotation marks. -/
theorem encode_chars (t : String) : encode (Literal.chars t) = quote :: (body t ++ [quote]) := by
  rw [Literal.chars, List.cons_append, encode_cons, encode_append]
  rfl

end Literal

/-! ### Outlines -/

/-- A text as it is printed. -/
def Scalar.ofText (t : String) : Scalar :=
  ⟨encode (Literal.chars t), Literal.encode_chars t ▸ .literal (Literal.spells_chars t.toList).body⟩

/-- A key as it is printed. -/
def Key.ofText (key : String) : Key := ⟨Literal.body key, (Literal.spells_chars key.toList).body⟩

mutual

/-- A value as it is printed, apart from its layout. -/
def outline : Json → Outline
  | .null   => .scalar ⟨Text.bytes "null", .null⟩
  | .bool b => .scalar ⟨Text.bytes (if b then "true" else "false"), by cases b <;> constructor⟩
  | .int n  => .scalar ⟨encode (integerText n), isScalar_integerText n⟩
  | .str t  => .scalar (.ofText t)
  | .arr vs => .list (outlines vs)
  | .obj ms => .object (memberOutlines ms)

def outlines : List Json → List Outline
  | []      => []
  | v :: vs => v.outline :: outlines vs

def memberOutlines : List (String × Json) → List (Key × Outline)
  | []           => []
  | (k, v) :: ms => (.ofText k, v.outline) :: memberOutlines ms

end

/-- A line end with indentation is blanks. -/
theorem blanks_newLine (level : Nat) : Blanks (encode (newLine level)) := by
  have hascii : ∀ c ∈ newLine level, c.toNat < 0x80 := by
    intro c hc
    rcases List.mem_cons.1 hc with rfl | hc
    · decide
    · rw [List.eq_of_mem_replicate hc]
      decide
  rw [Text.Utf8.encode_eq_map hascii]
  intro b hb
  obtain ⟨c, hc, rfl⟩ := List.mem_map.1 hb
  rcases List.mem_cons.1 hc with rfl | hc
  · rfl
  · rw [List.eq_of_mem_replicate hc]
    rfl

open Outline (Laid LaidItems LaidMember LaidMembers)

/-- A member is printed as one is laid out, if its value is. -/
theorem laid_prettyMember {level : Nat} {v : Json} {w : Bytes} (k : String)
    (hv : v.outline.Laid (encode (v.prettyChars level))) (hw : Blanks w) :
    LaidMember (.ofText k, v.outline)
      (encode (newLine level) ++ (encode (prettyMember level (k, v)) ++ w)) := by
  have hblank : Blanks [octet ' '] := by
    intro b hb
    rw [List.mem_singleton.1 hb]
    rfl
  have hmember := LaidMember.mk (k := .ofText k) (blanks_newLine level) .nil (.mk hblank hv hw)
  have hbody : (Key.ofText k).body = Literal.body k := rfl
  rw [prettyMember, encode_append, Literal.encode_chars, encode_mark (by decide),
    encode_mark (by decide)]
  simpa [hbody] using hmember

mutual

/-- **A value over lines is laid out**, at whatever level its first line is. -/
theorem laid_prettyChars (level : Nat) : ∀ v : Json, v.outline.Laid (encode (v.prettyChars level))
  | .null => .scalar _
  | .bool b => .scalar _
  | .int n => .scalar _
  | .str t => .scalar _
  | .arr [] => .emptyList .nil
  | .obj [] => .emptyObject .nil
  | .arr (v :: vs) => by
      have hlist := Laid.list (laid_prettyItems (level + 1) v vs (blanks_newLine level))
      rw [prettyChars, encode_append, encode_append, encode_mark (by decide), List.cons_append,
        List.cons_append]
      exact hlist
  | .obj ((k, v) :: ms) => by
      have hobject := Laid.object (laid_prettyMembers (level + 1) k v ms (blanks_newLine level))
      rw [prettyChars, encode_append, encode_append, encode_mark (by decide), List.cons_append,
        List.cons_append]
      exact hobject
termination_by v => sizeOf v

/-- Items are printed as they are laid out. -/
theorem laid_prettyItems (level : Nat) (v : Json) (vs : List Json) {w : Bytes} (hw : Blanks w) :
    LaidItems v.outline (outlines vs) (encode (prettyItems level (v :: vs)) ++ w) := by
  have hv := laid_prettyChars level v
  cases vs with
  | nil =>
      rw [prettyItems, encode_append, List.append_assoc]
      exact .last (.mk (blanks_newLine level) hv hw)
  | cons v' vs =>
      have hitems := LaidItems.more (.mk (blanks_newLine level) hv .nil)
        (laid_prettyItems level v' vs hw)
      rw [prettyItems, encode_append, encode_append, encode_mark (by decide)]
      · simpa [outlines] using hitems
      · exact List.cons_ne_nil v' vs
termination_by sizeOf (v :: vs)

/-- Members are printed as they are laid out. -/
theorem laid_prettyMembers (level : Nat) (k : String) (v : Json) (ms : List (String × Json))
    {w : Bytes} (hw : Blanks w) : LaidMembers (.ofText k, v.outline) (memberOutlines ms)
      (encode (prettyMembers level ((k, v) :: ms)) ++ w) := by
  have hv := laid_prettyChars level v
  cases ms with
  | nil =>
      rw [prettyMembers, encode_append, List.append_assoc]
      exact .last (laid_prettyMember k hv hw)
  | cons m ms =>
      obtain ⟨k', v'⟩ := m
      have hmembers := LaidMembers.more (laid_prettyMember k hv .nil)
        (laid_prettyMembers level k' v' ms hw)
      rw [prettyMembers, encode_append, encode_append, encode_mark (by decide)]
      · simpa [memberOutlines] using hmembers
      · exact List.cons_ne_nil _ ms
termination_by sizeOf ((k, v) :: ms)

end

/-- A printed file is the printed value and a line end. -/
theorem bytes_render (v : Json) :
    Text.bytes (render v) = Text.Utf8.encode (v.prettyChars 0) ++ [octet '\n'] := by
  rw [Text.bytes, render, String.toList_ofList, Text.Utf8.encode_append]
  rfl

/-- A printed file, with the blanks around its value. -/
theorem padded_render (v : Json) : v.outline.Padded (Text.bytes (render v)) := by
  have hend : Blanks (encode ['\n']) := by
    intro b hb
    rw [List.mem_singleton.1 hb]
    rfl
  rw [bytes_render]
  exact .mk .nil (laid_prettyChars 0 v) hend

/-- **A printed file is a JSON text.** -/
theorem isText_render (v : Json) : IsText (Text.bytes (render v)) :=
  ⟨⟨_, rfl⟩, _, padded_render v⟩

/-! ### The characters of a printed value -/

/-- A character that is no control character, or ends a line. -/
def Shown (c : Char) : Prop := 0x20 ≤ c.toNat ∨ c = '\n'

instance (c : Char) : Decidable (Shown c) := inferInstanceAs (Decidable (_ ∨ _))

theorem shown_of_all {cs : List Char} (h : cs.all (decide <| Shown ·) = true) :
    ∀ c ∈ cs, Shown c := by
  intro c hc
  exact of_decide_eq_true (List.all_eq_true.1 h c hc)

theorem shown_of_isDigit {c : Char} (h : c.isDigit = true) : Shown c :=
  .inl (Nat.le_trans (by decide) (Char.isDigit_iff_toNat.1 h).1)

/-- Escapes leave nothing that is not shown. -/
theorem Literal.shown_char (c : Char) : ∀ c' ∈ Literal.char c, Shown c' := by
  unfold Literal.char
  split
  case h_8 =>
    split
    · have hdigit : ∀ d < 16, Shown (Nat.digitChar d) := by decide
      simp only [hex4, List.forall_mem_cons]
      refine ⟨by decide, by decide, ?_⟩
      exact ⟨hdigit _ (Nat.mod_lt _ (by decide)), hdigit _ (Nat.mod_lt _ (by decide)),
        hdigit _ (Nat.mod_lt _ (by decide)), hdigit _ (Nat.mod_lt _ (by decide)), by simp⟩
    · next hplain =>
        intro c' hc'
        rw [List.mem_singleton.1 hc']
        exact .inl (by omega)
  all_goals exact shown_of_all rfl

theorem Literal.shown_chars (t : String) : ∀ c ∈ Literal.chars t, Shown c := by
  simp only [chars, List.cons_append, List.forall_mem_cons, List.forall_mem_append]
  refine ⟨by decide, ?_, by decide, List.forall_mem_nil _⟩
  intro c hc
  obtain ⟨c', -, hc⟩ := List.mem_flatMap.1 hc
  exact shown_char c' c hc

theorem shown_integerText (n : Int) : ∀ c ∈ integerText n, Shown c := by
  have hdigits : ∀ c ∈ Nat.toDigits 10 n.natAbs, Shown c := fun c hc =>
    shown_of_isDigit (Number.isDigit_of_mem_toDigits hc)
  unfold integerText
  split
  · exact List.forall_mem_cons.2 ⟨by decide, hdigits⟩
  · exact hdigits

/-- Of line ends and indentation all is shown. -/
theorem shown_newLine (level : Nat) : ∀ c ∈ newLine level, Shown c := by
  refine List.forall_mem_cons.2 ⟨by decide, ?_⟩
  intro c hc
  rw [List.eq_of_mem_replicate hc]
  decide

mutual

/-- **Every character of a printed value is shown.** -/
theorem shown_prettyChars (level : Nat) : ∀ v : Json, ∀ c ∈ v.prettyChars level, Shown c
  | .null => shown_of_all rfl
  | .bool b => by cases b <;> exact shown_of_all rfl
  | .int n => shown_integerText n
  | .str t => Literal.shown_chars t
  | .arr [] | .obj [] => shown_of_all rfl
  | .arr (v :: vs) => by
      simp only [prettyChars, List.cons_append, List.forall_mem_cons, List.forall_mem_append]
      exact ⟨by decide, ⟨shown_prettyItems (level + 1) (v :: vs), shown_newLine level⟩,
        by decide, List.forall_mem_nil _⟩
  | .obj (m :: ms) => by
      simp only [prettyChars, List.cons_append, List.forall_mem_cons, List.forall_mem_append]
      exact ⟨by decide, ⟨shown_prettyMembers (level + 1) (m :: ms), shown_newLine level⟩,
        by decide, List.forall_mem_nil _⟩

/-- So it is with items. -/
theorem shown_prettyItems (level : Nat) : ∀ vs : List Json, ∀ c ∈ prettyItems level vs, Shown c
  | [] => fun _ hc => absurd hc List.not_mem_nil
  | [v] => by
      simp only [prettyItems, List.forall_mem_append]
      exact ⟨shown_newLine level, shown_prettyChars level v⟩
  | v :: v' :: vs => by
      rw [prettyItems]
      · simp only [List.forall_mem_append, List.forall_mem_cons]
        exact ⟨⟨shown_newLine level, shown_prettyChars level v⟩, by decide,
          shown_prettyItems level (v' :: vs)⟩
      · exact List.cons_ne_nil v' vs

/-- And with members. -/
theorem shown_prettyMembers (level : Nat) : ∀ ms : List (String × Json),
    ∀ c ∈ prettyMembers level ms, Shown c
  | [] => fun _ hc => absurd hc List.not_mem_nil
  | [(k, v)] => by
      simp only [prettyMembers, prettyMember, List.forall_mem_append, List.forall_mem_cons]
      exact ⟨shown_newLine level, Literal.shown_chars k, by decide, by decide,
        shown_prettyChars level v⟩
  | (k, v) :: m :: ms => by
      rw [prettyMembers]
      · simp only [prettyMember, List.forall_mem_append, List.forall_mem_cons]
        exact ⟨⟨shown_newLine level, Literal.shown_chars k, by decide, by decide,
          shown_prettyChars level v⟩, by decide, shown_prettyMembers level (m :: ms)⟩
      · exact List.cons_ne_nil m ms

end

/-- A printed value ends with a mark, a letter or a digit. -/
theorem exists_prettyChars_concat (level : Nat) (v : Json) :
    ∃ cs c, v.prettyChars level = cs ++ [c] ∧ c ≠ '\n' := by
  cases v with
  | null => exact ⟨['n', 'u', 'l'], 'l', rfl, by decide⟩
  | bool b =>
      cases b with
      | true => exact ⟨['t', 'r', 'u'], 'e', rfl, by decide⟩
      | false => exact ⟨['f', 'a', 'l', 's'], 'e', rfl, by decide⟩
  | int n =>
      have hdigits := Nat.toDigits_ne_nil (n := n.natAbs) (b := 10)
      have hlast : (Nat.toDigits 10 n.natAbs).getLast hdigits ≠ '\n' := by
        intro h
        have hdigit := Number.isDigit_of_mem_toDigits (List.getLast_mem hdigits)
        rw [h] at hdigit
        cases hdigit
      have hsplit := List.dropLast_append_getLast hdigits
      by_cases hn : n < 0
      · refine ⟨'-' :: (Nat.toDigits 10 n.natAbs).dropLast, _, ?_, hlast⟩
        rw [prettyChars, integerText, if_pos hn, List.cons_append, hsplit]
      · refine ⟨(Nat.toDigits 10 n.natAbs).dropLast, _, ?_, hlast⟩
        rw [prettyChars, integerText, if_neg hn, hsplit]
  | str t => exact ⟨_, '"', rfl, by decide⟩
  | arr vs =>
      cases vs with
      | nil => exact ⟨['['], ']', rfl, by decide⟩
      | cons v vs => exact ⟨_, ']', rfl, by decide⟩
  | obj ms =>
      cases ms with
      | nil => exact ⟨['\x7b'], '\x7d', rfl, by decide⟩
      | cons m ms => exact ⟨_, '\x7d', rfl, by decide⟩

end InterfaceSchema.Json
