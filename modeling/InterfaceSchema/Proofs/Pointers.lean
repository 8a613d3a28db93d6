import InterfaceSchema.Json.Octet
import InterfaceSchema.Proofs.References
import InterfaceSchema.Proofs.Utf8

/-!
# References as pointers

A reference in a schema of draft 04 is a URI, and one to the same document is a `#` with a JSON
pointer after it.  To resolve it (`Json.resolve?`) is to read the fragment's octets with its
percent signs resolved, to split the text that they spell at its slashes into tokens, to unescape
these, and to walk into the document along them.  A percent sign that no two hexadecimal digits
follow, and a tilde that neither `0` nor `1` follows, are malformed.

References to definitions have the name as it stands.  Decoding never makes a text longer, and
leaves alone only texts that have nothing to decode; so a name comes out of its reference again
exactly when it has no slash, no tilde and no percent sign (`ofReference?_pointer_iff`).

* `references_reach_iff`: a reference to a definition reaches it exactly when its name is such.
-/

namespace InterfaceSchema

/-! ### How references are resolved -/

/-- Octets in which a percent sign and two hexadecimal digits stand for one octet. -/
def Text.percentDecode : Text.Bytes → Option Text.Bytes
  | [] => some []
  | b :: rest =>
    if Json.glyph b = '%' then
      match rest with
      | high :: low :: rest =>
        match Json.hexDigit? high, Json.hexDigit? low with
        | some h, some l => (percentDecode rest).map (UInt8.ofNat (16 * h + l) :: ·)
        | _, _ => none
      | _ => none
    else (percentDecode rest).map (b :: ·)

namespace Json

/-- A token in which `~0` stands for a tilde and `~1` for a slash. -/
def unescape : List Char → Option (List Char)
  | [] => some []
  | c :: cs =>
    if c = '~' then
      match cs with
      | '0' :: cs => (unescape cs).map ('~' :: ·)
      | '1' :: cs => (unescape cs).map ('/' :: ·)
      | _ => none
    else (unescape cs).map (c :: ·)

/-- The tokens of a pointer, each of which has a slash before it. -/
def tokens? : List Char → Option (List String)
  | [] => some []
  | c :: cs =>
    if c = '/' then (cs.splitOn '/').mapM fun token => (unescape token).map String.ofList else none

/-- The tokens of a reference to the same document. -/
def ofReference? (reference : String) : Option (List String) :=
  match reference.toList with
  | '#' :: fragment =>
    match Text.percentDecode (Text.Utf8.encode fragment) with
    | none => none
    | some octets =>
      match Text.Utf8.decode octets with
      | .error _ => none
      | .ok text => tokens? text
  | _ => none

/-- The value that tokens lead to.  A member goes by its name, and an item by its place, written
in decimal. -/
def at? : Json → List String → Option Json
  | v, [] => some v
  | .obj ms, token :: tokens => (Entries.get? token ms).bind (·.at? tokens)
  | .arr vs, token :: tokens =>
    ((List.range vs.length).find? (Nat.repr · == token)).bind fun i =>
      vs[i]?.bind (·.at? tokens)
  | _, _ :: _ => none

/-- The place that a reference leads to in a document, and the value there. -/
def resolve? (document : Json) (reference : String) : Option (List String × Json) :=
  (ofReference? reference).bind fun tokens => (document.at? tokens).map (tokens, ·)

/-! ### Texts with nothing to decode -/

/-- The name has no slash, no tilde and no percent sign. -/
def IsPlain (cs : List Char) : Prop := '/' ∉ cs ∧ '~' ∉ cs ∧ '%' ∉ cs

theorem glyph_eq_percent_iff {b : UInt8} : glyph b = '%' ↔ b = 0x25 := by
  constructor
  · intro h
    have htoNat := congrArg Char.toNat h
    exact UInt8.toNat_inj.1 htoNat
  · rintro rfl
    rfl

theorem percent_mem_encode_iff {cs : List Char} :
    0x25 ∈ Text.Utf8.encode cs ↔ '%' ∈ cs := by
  rw [Text.Utf8.mem_encode_iff (by decide)]
  constructor
  · rintro ⟨c, hc, hnat⟩
    rwa [show '%' = c from Char.toNat_inj.1 hnat.symm]
  · intro h
    exact ⟨'%', h, rfl⟩

/-- **Percent signs make a text shorter, or there are none.** -/
theorem percentDecode_eq_or_lt {bs ds : Text.Bytes} (h : Text.percentDecode bs = some ds) :
    (ds = bs ∧ 0x25 ∉ bs) ∨ ds.length < bs.length := by
  fun_induction Text.percentDecode bs generalizing ds with
  | case1 =>
      cases h
      exact .inl ⟨rfl, List.not_mem_nil⟩
  | case2 b hb high low rest x y hlow hhigh ih =>
      obtain ⟨es, hes, rfl⟩ := Option.map_eq_some_iff.1 h
      refine .inr ?_
      rcases ih hes with ⟨rfl, -⟩ | hlt <;> simp only [List.length_cons] <;> omega
  | case3 | case4 => cases h
  | case5 b rest hb ih =>
      obtain ⟨es, hes, rfl⟩ := Option.map_eq_some_iff.1 h
      rcases ih hes with ⟨rfl, hrest⟩ | hlt
      · refine .inl ⟨rfl, List.not_mem_cons_of_ne_of_not_mem ?_ hrest⟩
        exact fun hpercent => hb (glyph_eq_percent_iff.2 hpercent.symm)
      · exact .inr (Nat.succ_lt_succ hlt)

theorem percentDecode_of_not_mem {bs : Text.Bytes} (h : 0x25 ∉ bs) :
    Text.percentDecode bs = some bs := by
  induction bs with
  | nil => rfl
  | cons b bs ih =>
      have hb : glyph b ≠ '%' := fun hglyph =>
        List.ne_of_not_mem_cons h (glyph_eq_percent_iff.1 hglyph).symm
      unfold Text.percentDecode
      rw [if_neg hb, ih (List.not_mem_of_not_mem_cons h)]
      rfl

/-- **Tildes make a token shorter, or there are none.** -/
theorem unescape_eq_or_lt {cs ds : List Char} (h : unescape cs = some ds) :
    (ds = cs ∧ '~' ∉ cs) ∨
      (Text.Utf8.encode ds).length < (Text.Utf8.encode cs).length := by
  fun_induction unescape cs generalizing ds with
  | case1 =>
      cases h
      exact .inl ⟨rfl, List.not_mem_nil⟩
  | case2 cs ih | case3 cs ih =>
      obtain ⟨es, hes, rfl⟩ := Option.map_eq_some_iff.1 h
      refine .inr ?_
      have hle : (Text.Utf8.encode es).length ≤ (Text.Utf8.encode cs).length := by
        rcases ih hes with ⟨rfl, -⟩ | hlt
        · exact Nat.le_refl _
        · exact Nat.le_of_lt hlt
      simp only [Text.Utf8.length_encode_cons]
      exact Nat.add_lt_add_left (Nat.lt_of_le_of_lt hle (Nat.lt_add_of_pos_left (by decide))) _
  | case4 => cases h
  | case5 c cs hc ih =>
      obtain ⟨es, hes, rfl⟩ := Option.map_eq_some_iff.1 h
      rcases ih hes with ⟨rfl, hcs⟩ | hlt
      · exact .inl ⟨rfl, List.not_mem_cons_of_ne_of_not_mem (Ne.symm hc) hcs⟩
      · refine .inr ?_
        simp only [Text.Utf8.length_encode_cons]
        exact Nat.add_lt_add_left hlt _

theorem unescape_of_not_mem {cs : List Char} (h : '~' ∉ cs) : unescape cs = some cs := by
  induction cs with
  | nil => rfl
  | cons c cs ih =>
      have hc : c ≠ '~' := (List.ne_of_not_mem_cons h).symm
      unfold unescape
      rw [if_neg hc, ih (List.not_mem_of_not_mem_cons h)]
      rfl

/-! ### Tokens -/

theorem mapM_eq_some_nil {α β : Type} {f : α → Option β} {xs : List α}
    (h : xs.mapM f = some []) : xs = [] := by
  cases xs with
  | nil => rfl
  | cons x xs => simp [List.mapM_cons, Option.bind_eq_some_iff] at h

theorem mapM_eq_some_cons {α β : Type} {f : α → Option β} {xs : List α} {b : β} {bs : List β}
    (h : xs.mapM f = some (b :: bs)) :
    ∃ y ys, xs = y :: ys ∧ f y = some b ∧ ys.mapM f = some bs := by
  cases xs with
  | nil => simp at h
  | cons x xs => exact ⟨x, xs, rfl, by simpa [List.mapM_cons, Option.bind_eq_some_iff] using h⟩

/-- No piece of a split has what the split is at. -/
theorem not_mem_of_mem_splitOn {a : Char} {cs piece : List Char} (h : piece ∈ cs.splitOn a) :
    a ∉ piece := by
  induction cs generalizing piece with
  | nil =>
      rw [List.splitOn_nil, List.mem_singleton] at h
      simp [h]
  | cons c cs ih =>
      rw [List.splitOn_cons_eq_if_modifyHead] at h
      split at h
      · rcases List.mem_cons.1 h with rfl | h
        · exact List.not_mem_nil
        · exact ih h
      · next hc =>
          -- the character goes into the first piece of what follows it
          obtain ⟨first, rest, hsplit⟩ := List.exists_cons_of_ne_nil (List.splitOn_ne_nil a cs)
          rw [hsplit, List.modifyHead_cons] at h
          rw [hsplit] at ih
          rcases List.mem_cons.1 h with rfl | h
          · have hne : a ≠ c := fun hac => hc (by simp [hac])
            exact List.not_mem_cons_of_ne_of_not_mem hne (ih List.mem_cons_self)
          · exact ih (List.mem_cons_of_mem first h)

/-- **A pointer of two tokens** is the two with a slash before each, and the second has no slash
itself. -/
theorem tokens?_eq_pair {cs : List Char} {a b : String} (h : tokens? cs = some [a, b]) :
    ∃ x y, cs = '/' :: (x ++ '/' :: y) ∧ unescape x = some a.toList ∧
      unescape y = some b.toList ∧ '/' ∉ y := by
  cases cs with
  | nil => cases h
  | cons c cs =>
      rw [tokens?] at h
      split at h
      · next hc =>
          obtain ⟨x, ps, hsplit, hx, hps⟩ := mapM_eq_some_cons h
          obtain ⟨y, qs, rfl, hy, hqs⟩ := mapM_eq_some_cons hps
          obtain rfl := mapM_eq_some_nil hqs
          obtain ⟨x', hx', rfl⟩ := Option.map_eq_some_iff.1 hx
          obtain ⟨y', hy', rfl⟩ := Option.map_eq_some_iff.1 hy
          have hcs : cs = x ++ '/' :: y := by
            calc cs = ['/'].intercalate (cs.splitOn '/') := (List.intercalate_splitOn '/').symm
              _ = x ++ '/' :: y := by rw [hsplit]; simp
          have hpiece : y ∈ cs.splitOn '/' := by simp [hsplit]
          exact ⟨x, y, by rw [hc, hcs], by simpa using hx', by simpa using hy',
            not_mem_of_mem_splitOn hpiece⟩
      · cases h

/-- The characters of a reference, after its `#`. -/
def fragment (name : String) : List Char := '/' :: ("definitions".toList ++ '/' :: name.toList)

theorem toList_pointer (name : String) :
    (Draft.pointer name).toList = '#' :: fragment name := by
  rw [Draft.pointer, String.toList_append]
  rfl

/-- A name without percent signs stands as it is in what its reference decodes to. -/
theorem ofReference?_pointer {name : String} (h : '%' ∉ name.toList) :
    ofReference? (Draft.pointer name) = tokens? (fragment name) := by
  have hfragment : 0x25 ∉ Text.Utf8.encode (fragment name) := by
    rw [percent_mem_encode_iff]
    simpa [fragment] using h
  have hdecode : Text.Utf8.decode (Text.Utf8.encode (fragment name)) = .ok (fragment name) :=
    Text.Utf8.decode_eq_ok_iff.2 rfl
  simp only [ofReference?, toList_pointer, percentDecode_of_not_mem hfragment, hdecode]

/-- What a reference decodes to is no longer than its fragment, and shorter if there are percent
signs in the name. -/
theorem tokens?_of_ofReference? {name : String} {tokens : List String}
    (h : ofReference? (Draft.pointer name) = some tokens) :
    ∃ text, tokens? text = some tokens ∧
      (Text.Utf8.encode text).length ≤ (Text.Utf8.encode (fragment name)).length ∧
      ('%' ∈ name.toList →
        (Text.Utf8.encode text).length < (Text.Utf8.encode (fragment name)).length) := by
  rw [ofReference?, toList_pointer] at h
  split at h
  · next cs hcs =>
      cases hcs
      split at h
      · cases h
      · next octets hoctets =>
          split at h
          · cases h
          · next text htext =>
              obtain rfl := Text.Utf8.decode_eq_ok_iff.1 htext
              refine ⟨text, h, ?_⟩
              rcases percentDecode_eq_or_lt hoctets with ⟨hsame, hnone⟩ | hlt
              · refine ⟨Nat.le_of_eq (congrArg List.length hsame), fun hpercent => absurd ?_ hnone⟩
                rw [percent_mem_encode_iff]
                simp [fragment, hpercent]
              · exact ⟨Nat.le_of_lt hlt, fun _ => hlt⟩
  · cases h

/-- **A name comes out of its reference again** exactly when it is plain. -/
theorem ofReference?_pointer_iff {name : String} :
    ofReference? (Draft.pointer name) = some ["definitions", name] ↔ IsPlain name.toList := by
  constructor
  · intro h
    obtain ⟨text, htokens, hle, hpercent⟩ := tokens?_of_ofReference? h
    obtain ⟨x, y, rfl, hx, hy, hslash⟩ := tokens?_eq_pair htokens
    simp only [fragment, Text.Utf8.length_encode_cons, Text.Utf8.length_encode_append]
      at hle hpercent
    -- neither token can have become longer, so nothing has become shorter
    have hdefinitions : (Text.Utf8.encode "definitions".toList).length ≤
        (Text.Utf8.encode x).length := by
      rcases unescape_eq_or_lt hx with ⟨rfl, -⟩ | hlt
      · exact Nat.le_refl _
      · exact Nat.le_of_lt hlt
    rcases unescape_eq_or_lt hy with ⟨rfl, htilde⟩ | hlt
    · refine ⟨hslash, htilde, fun hmem => ?_⟩
      have hlt := hpercent hmem
      omega
    · omega
  · rintro ⟨hslash, htilde, hpercent⟩
    have hsplit : ("definitions".toList ++ '/' :: name.toList).splitOn '/' =
        ["definitions".toList, name.toList] := by
      rw [List.splitOn_append_cons_self_of_not_mem (by decide), List.splitOn_eq_singleton hslash]
    rw [ofReference?_pointer hpercent, fragment, tokens?, if_pos rfl, hsplit, List.mapM_cons,
      List.mapM_cons, unescape_of_not_mem htilde, unescape_of_not_mem (by decide)]
    simp

end Json

/-! ### References to definitions -/

open Draft (Refers)

namespace Document

/-- The definition under a name stands where one looks for it. -/
theorem at?_definition {s : Schema} {d : Document} (h : ofSchema s = .ok d) {name : String}
    {v : Draft.Definition} (hv : (name, v) ∈ d.definitions) :
    d.toJson.at? ["definitions", name] = some v.toJson := by
  have hget := (Entries.mem_iff_get? (nodup_names_definitions h)).1 hv
  rw [toJson_eq, if_neg (List.ne_nil_of_mem hv)]
  simp [Json.at?, Entries.get?, Entries.get?_map, hget]

/-- **A reference to a definition reaches it** exactly when the name is plain: otherwise the tokens
of the reference lead elsewhere, or it has none. -/
theorem references_reach_iff {s : Schema} {d : Document} (h : ofSchema s = .ok d) :
    ∀ x, Refers d.toJson x → ∃ name, x = .str (Draft.pointer name) ∧
      ∀ v, (name, v) ∈ d.definitions →
        (d.toJson.resolve? (Draft.pointer name) = some (["definitions", name], v.toJson) ↔
          Json.IsPlain name.toList) := by
  intro x hx
  obtain ⟨name, -, rfl⟩ := refers_toJson_iff.1 hx
  refine ⟨name, rfl, fun v hv => ?_⟩
  rw [← Json.ofReference?_pointer_iff]
  constructor
  · intro hresolve
    obtain ⟨tokens, htokens, hat⟩ := Option.bind_eq_some_iff.1 hresolve
    obtain ⟨w, -, hpair⟩ := Option.map_eq_some_iff.1 hat
    rw [htokens, (Prod.mk.inj hpair).1]
  · intro htokens
    simp only [Json.resolve?, htokens, Option.bind_some, at?_definition h hv, Option.map_some]

/-- A field of a type with a plain name, although this is not one word. -/
theorem references_reach_two_words :
    let s : Schema := ⟨"Words", [⟨"größe #1", "Struct", none, .struct []⟩,
      ⟨"S", "Struct", none, .struct [⟨"f", "größe #1", false, none, none⟩]⟩]⟩
    ∃ d, ofSchema s = .ok d ∧ d.refs = ["größe #1"] ∧
      ∀ x, Refers d.toJson x → ∃ name, x = .str (Draft.pointer name) ∧
        ∀ v, (name, v) ∈ d.definitions →
          (d.toJson.resolve? (Draft.pointer name) = some (["definitions", name], v.toJson) ↔
            Json.IsPlain name.toList) := by
  intro s
  obtain ⟨d, h, hrefs⟩ : ∃ d, ofSchema s = .ok d ∧ d.refs = ["größe #1"] := ⟨_, rfl, rfl⟩
  exact ⟨d, h, hrefs, references_reach_iff h⟩

/-- A field of a struct with a slash in its name: the reference is read as two tokens after
`definitions`, and there is nothing at the end of them. -/
theorem reference_misses_slash :
    let s : Schema := ⟨"Slashes", [⟨"a/b", "Struct", none, .struct []⟩,
      ⟨"S", "Struct", none, .struct [⟨"f", "a/b", false, none, none⟩]⟩]⟩
    ∃ d, ofSchema s = .ok d ∧
      ¬ ∀ name v, Refers d.toJson (.str (Draft.pointer name)) → (name, v) ∈ d.definitions →
        (d.toJson.resolve? (Draft.pointer name)).map (·.2) = some v.toJson := by
  intro s
  obtain ⟨d, h, href, ⟨v, hv⟩, hnone⟩ : ∃ d, ofSchema s = .ok d ∧ "a/b" ∈ d.refs ∧
      (∃ v, ("a/b", v) ∈ d.definitions) ∧ Entries.get? "a" d.definitions = none :=
    ⟨_, rfl, by decide, ⟨_, List.mem_cons_self⟩, rfl⟩
  refine ⟨d, h, fun hall => ?_⟩
  have hreach := hall "a/b" v (refers_toJson_iff.2 ⟨"a/b", href, rfl⟩) hv
  have htokens : Json.ofReference? (Draft.pointer "a/b") = some ["definitions", "a", "b"] := by
    rw [Json.ofReference?_pointer (by decide)]
    decide +kernel
  have hat : d.toJson.at? ["definitions", "a", "b"] = none := by
    rw [toJson_eq, if_neg (List.ne_nil_of_mem hv)]
    simp [Json.at?, Entries.get?, Entries.get?_map, hnone]
  rw [Json.resolve?, htokens, Option.bind_some, hat] at hreach
  cases hreach

end Document
end InterfaceSchema
