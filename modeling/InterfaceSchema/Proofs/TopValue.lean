import InterfaceSchema.Idl.Wire
import InterfaceSchema.Proofs.Outlines
import InterfaceSchema.Proofs.Results
import InterfaceSchema.Proofs.Utf8

/-!
# The value in front of an input

What a reader takes off the front of an input is one value, for what is read can be passed over.
A schema is a list or an object, so where it ends does not hang on what follows it, and what
follows it is not looked at: an input from which a schema is read is a JSON text just when blanks
alone follow, and when all of it is in UTF-8.

* `Shape.exists_after?_of_run`: what a shape reads is a value.
* `isText_iff_of_after?`: when a text that starts with a value is a JSON text.
* `Schema.read_front`: what is settled by the input from which a schema is read.
-/

namespace InterfaceSchema.Json

open InterfaceSchema.Text (Bytes)
open InterfaceSchema.Json.Tree (afterItems? afterMembers? keyAt? afterKey?)

/-! ### Readers -/

namespace Reader
variable {α β : Type} {p : Reader α} {s r : Bytes}

/-- What the reader takes is a value. -/
def TakesValue (p : Reader α) : Prop :=
  ∀ ⦃s r : Bytes⦄ ⦃a : α⦄, p.run s = .ok (a, r) → ∃ v : Tree, v.after? s = some r

/-- What the reader takes is the rest of a list. -/
def TakesItems (p : Reader α) (first : Bool) : Prop :=
  ∀ ⦃s r : Bytes⦄ ⦃a : α⦄, p.run s = .ok (a, r) → ∃ vs, afterItems? first vs s = some r

/-- What the reader takes is what follows a key. -/
def TakesMember (p : Reader α) : Prop :=
  ∀ ⦃s r : Bytes⦄ ⦃a : α⦄, p.run s = .ok (a, r) →
    ∃ (s' : Bytes) (v : Tree), readColon s = .ok s' ∧ v.after? s' = some r

/-- What the reader takes is what follows the opening bracket of an object. -/
def TakesMembers (p : Reader α) : Prop :=
  ∀ ⦃s r : Bytes⦄ ⦃a : α⦄, p.run s = .ok (a, r) → ∃ ms, afterMembers? true ms s = some r

/-- What is changed has been read. -/
theorem exists_run_of_map {f : α → β} {b : β} (h : (p.map f).run s = .ok (b, r)) :
    ∃ a, p.run s = .ok (a, r) := by
  simp only [map] at h
  split at h
  · cases h
  · next a r' ha =>
      cases h
      exact ⟨a, ha⟩

/-- A reader of tokens takes a scalar, if it refuses brackets. -/
theorem takesValue_scalar {accept : Token → Except Cause α} (hlist : ∃ c, accept .list = .error c)
    (hobject : ∃ c, accept .object = .error c) : (scalar accept).TakesValue := by
  intro s r a h
  simp only [scalar] at h
  split at h
  · cases h
  · next t r' ht =>
      split at h
      · next a' ha =>
          cases h
          obtain ⟨b, s', hs, hstarts⟩ := Token.starts_of_read ht
          cases hstarts with
          | list =>
              obtain ⟨c, hc⟩ := hlist
              rw [hc] at ha
              cases ha
          | object =>
              obtain ⟨c, hc⟩ := hobject
              rw [hc] at ha
              cases ha
          | scalar hscalar => exact ⟨_, Tree.after?_scalar hs hscalar⟩
      · cases h

/-- So does a reader of values or null take one of these. -/
theorem takesValue_nullable (hp : p.TakesValue) : (nullable p).TakesValue := by
  intro s r a h
  simp only [nullable] at h
  split at h
  · next b s' hs =>
      split at h
      · next hb =>
          split at h
          · cases h
          · next r' hword =>
              cases h
              have hscalar : Skipping.scalar b s' = .ok r := by
                rw [Skipping.scalar, hb]
                exact hword
              exact ⟨_, Tree.after?_scalar hs hscalar⟩
      · obtain ⟨a', ha⟩ := exists_run_of_map h
        exact hp ha
  · obtain ⟨a', ha⟩ := exists_run_of_map h
    exact hp ha

/-- Items that are read are values, one after the other. -/
theorem exists_afterItems?_of_itemsFrom (hp : p.TakesValue) {read as : List α} {i : Nat}
    (h : itemsFrom p read i s = .ok (as, r)) : ∃ vs, afterItems? (i = 0) vs s = some r := by
  fun_induction itemsFrom p read i s with
  | case1 | case3 => cases h
  | case2 read i s r' hn =>
      cases h
      exact ⟨[], Tree.afterItems?_nil hn⟩
  | case4 read i s s' hn a r' ha ih =>
      obtain ⟨v, hv⟩ := hp ha
      obtain ⟨vs, hvs⟩ := ih h
      exact ⟨v :: vs, (Tree.afterItems?_cons hn hv).trans (by simpa using hvs)⟩

/-- An opening bracket that is read stands in front, after blanks. -/
theorem skipBlanks_of_read_list (h : Token.read s = .ok (.list, r)) :
    ∃ b, skipBlanks s = b :: r ∧ glyph b = '[' := by
  obtain ⟨b, s', hs, hstarts⟩ := Token.starts_of_read h
  cases hstarts with
  | list hb => exact ⟨b, hs, hb⟩
  | scalar _ hlist _ _ => exact absurd rfl hlist

/-- A brace stands where an object is read. -/
theorem skipBlanks_of_read_object (h : Token.read s = .ok (.object, r)) :
    ∃ b, skipBlanks s = b :: r ∧ glyph b = '\x7b' := by
  obtain ⟨b, s', hs, hstarts⟩ := Token.starts_of_read h
  cases hstarts with
  | object hb => exact ⟨b, hs, hb⟩
  | scalar _ _ hobject _ => exact absurd rfl hobject

/-- A reader of lists takes a list of values. -/
theorem takesValue_list (hp : p.TakesValue) : (list p).TakesValue := by
  intro s r as h
  simp only [list] at h
  split at h
  · cases h
  · next s' ht =>
      obtain ⟨b, hs, hb⟩ := skipBlanks_of_read_list ht
      obtain ⟨vs, hvs⟩ := exists_afterItems?_of_itemsFrom hp h
      exact ⟨.list vs, (Tree.after?_list hs hb).trans hvs⟩
  · cases h

/-- Members that are read are keys and values, one after the other. -/
theorem exists_afterMembers?_of_membersFrom {take : String → α → Reader α}
    (htake : ∀ key a, (take key a).TakesMember) {first : Bool} {a a' : α}
    (h : membersFrom take first a s = .ok (a', r)) :
    ∃ ms, afterMembers? first ms s = some r := by
  fun_induction membersFrom take first a s with
  | case1 | case3 => cases h
  | case2 first a s r' hn =>
      cases h
      exact ⟨[], Tree.afterMembers?_nil hn⟩
  | case4 first a s key s' hn a'' r' ha ih =>
      obtain ⟨q, hq, hread⟩ := exists_keyAt?_of_nextKey hn
      obtain ⟨s'', v, hcolon, hv⟩ := htake key a ha
      obtain ⟨ms, hms⟩ := ih h
      have hkey : afterKey? (Literal.read q).verdict q = some s'' :=
        Tree.afterKey?_eq_some_iff.2 ⟨s', Literal.skip_of_read hread, rfl, hcolon⟩
      exact ⟨_ :: ms, (Tree.afterMembers?_cons hq hkey hv).trans hms⟩

/-- A reader of members takes an object from its brace on. -/
theorem takesMembers_named {take : String → α → Reader α}
    (htake : ∀ key a, (take key a).TakesMember) {start : α} {finish : α → Except Cause β} :
    (named take start finish).TakesMembers := by
  intro s r b h
  simp only [named] at h
  split at h
  · cases h
  · next a r' hmembers =>
      split at h
      · cases h
        exact exists_afterMembers?_of_membersFrom htake hmembers
      · cases h

/-- A reader of a member takes its value. -/
theorem takesMember_member (key : String) (hp : p.TakesValue) : (member key p).TakesMember := by
  intro s r a h
  simp only [member] at h
  split at h
  · cases h
  · next s' hcolon =>
      split at h
      · cases h
      · next hrun =>
          cases h
          obtain ⟨v, hv⟩ := hp hrun
          exact ⟨s', v, hcolon, hv⟩

theorem takesMember_map {f : α → β} (hp : p.TakesMember) : (p.map f).TakesMember := by
  intro s r b h
  obtain ⟨a, ha⟩ := exists_run_of_map h
  exact hp ha

/-- The end of a list takes its bracket. -/
theorem takesItems_listEnd {a : α} {first : Bool} : (listEnd a).TakesItems first := by
  intro s r a' h
  simp only [listEnd] at h
  split at h
  · cases h
  · next b s' hs =>
      split at h
      · next hb =>
          cases h
          exact ⟨[], Tree.afterItems?_nil (nextItem_of_close hs hb)⟩
      · split at h
        · split at h <;> cases h
        · cases h

/-- One item is taken, and then the others. -/
theorem takesItems_listItem {i : Nat} {q : Reader β} {short : Except Cause (α × β)}
    (hp : p.TakesValue) (hq : q.TakesItems false) :
    (listItem i p q short).TakesItems (i = 0) := by
  intro s r a h
  simp only [listItem] at h
  split at h
  · cases h
  · next r' hn =>
      split at h
      · cases h
        exact ⟨[], Tree.afterItems?_nil hn⟩
      · cases h
  · next s' hn =>
      split at h
      · cases h
      · next a' s'' ha =>
          split at h
          · cases h
          · next b r' hb =>
              cases h
              obtain ⟨v, hv⟩ := hp ha
              obtain ⟨vs, hvs⟩ := hq hb
              exact ⟨v :: vs, (Tree.afterItems?_cons hn hv).trans hvs⟩

/-- A reader of records takes a value, an object or a list. -/
theorem takesValue_record {title : String} {named listed : Reader α}
    (hnamed : named.TakesMembers) (hlisted : listed.TakesItems true) :
    (record title named listed).TakesValue := by
  intro s r a h
  simp only [record] at h
  split at h
  · cases h
  · next s' ht =>
      obtain ⟨b, hs, hb⟩ := skipBlanks_of_read_object ht
      obtain ⟨ms, hms⟩ := hnamed h
      exact ⟨.object ms, (Tree.after?_object hs hb).trans hms⟩
  · next s' ht =>
      obtain ⟨b, hs, hb⟩ := skipBlanks_of_read_list ht
      obtain ⟨vs, hvs⟩ := hlisted h
      exact ⟨.list vs, (Tree.after?_list hs hb).trans hvs⟩
  · cases h

end Reader

/-! ### Shapes -/

mutual

/-- **What a shape reads is a value.** -/
theorem Shape.takesValue : ∀ s : Shape, s.reader.TakesValue
  | .text => Reader.takesValue_scalar ⟨_, rfl⟩ ⟨_, rfl⟩
  | .flag => Reader.takesValue_scalar ⟨_, rfl⟩ ⟨_, rfl⟩
  | .integer => Reader.takesValue_scalar ⟨_, rfl⟩ ⟨_, rfl⟩
  | .nullable s => Reader.takesValue_nullable s.takesValue
  | .list s => Reader.takesValue_list s.takesValue
  | .record title ms =>
      Reader.takesValue_record (Reader.takesMembers_named ms.takesMember)
        (Members.takesItems title ms.size 0 ms)

/-- Whatever its key, a member of a record is taken with its value. -/
theorem Members.takesMember : ∀ (ms : Members) (key : String) (slots : ms.Slots),
    (ms.take key slots).TakesMember
  | .empty, key, () =>
      Reader.takesMember_map <| Reader.takesMember_member key fun _ _ _ h => Tree.skip_eq_ok_iff.1 h
  | .cons k _ s ms, key, (slot, slots) => by
      simp only [Members.take]
      split
      · cases slot with
        | some a =>
            intro s r a h
            cases h
        | none => exact Reader.takesMember_map (Reader.takesMember_member k s.takesValue)
      · exact Reader.takesMember_map (ms.takesMember key slots)

/-- The items of a record that stands as a list are taken. -/
theorem Members.takesItems (title : String) (size : Nat) : ∀ (i : Nat) (ms : Members),
    (ms.listed title size i).TakesItems (i = 0)
  | i, .empty => Reader.takesItems_listEnd
  | i, .cons k p s ms => by
      have hlater : (ms.listed title size (i + 1)).TakesItems false := by
        simpa using Members.takesItems title size (i + 1) ms
      exact Reader.takesItems_listItem s.takesValue hlater

end

/-- What a shape reads off the front of an input is what it makes of a value there. -/
theorem Shape.exists_after?_of_read {s : Shape} {input : Bytes} {a : s.Val}
    (h : s.read input = .ok a) :
    ∃ (v : Tree) (rest : Bytes), v.after? input = some rest ∧ s.ofTree v = .ok a := by
  have hrun := h
  simp only [Shape.read] at hrun
  split at hrun
  · next a' rest hok =>
      obtain ⟨v, hv⟩ := s.takesValue hok
      have hread := s.read_of_after? hv
      rw [h] at hread
      exact ⟨v, rest, hv, hread.symm⟩
  · cases hrun

/-- A record is no scalar. -/
theorem Shape.ne_scalar_of_ofTree {title : String} {ms : Members} {v : Tree} {a : ms.Val}
    (h : (Shape.record title ms).ofTree v = .ok a) (reading : Except Flaw Token) :
    v ≠ .scalar reading := by
  rintro rfl
  simp only [Shape.ofTree, Tree.record, Tree.accept, Tree.token] at h
  cases reading <;> cases h

/-! ### JSON texts -/

/-- **A text that starts with a value is a JSON text** just when blanks alone follow the value,
and when it is in UTF-8. -/
theorem isText_iff_of_after? {v : Tree} {input rest : Bytes} (h : v.after? input = some rest)
    (hv : ∀ reading, v ≠ .scalar reading) :
    IsText input ↔ Blanks rest ∧ ∃ cs, input = Text.Utf8.encode cs := by
  constructor
  · rintro ⟨hutf8, o, hpadded⟩
    refine ⟨?_, hutf8⟩
    cases hpadded with
    | mk hw hx hw' =>
        have hends := Outline.ends_of_stops hw'.stops o
        have ho := Outline.after?_of_laid hx hends
        rw [← Tree.after?_append hw] at ho
        rwa [Tree.after?_unique h ho]
  · rintro ⟨hrest, hutf8⟩
    obtain ⟨w, x, o, rfl, hw, hx, -⟩ := Tree.exists_front h hv
    exact ⟨hutf8, o, .mk hw hx hrest⟩

end InterfaceSchema.Json

namespace InterfaceSchema

open Json
open InterfaceSchema.Text (Bytes)

/-- What the input holds is read off its value. -/
theorem Schema.read_of_after? {v : Tree} {input rest : Bytes} (h : v.after? input = some rest) :
    (read input).mapError Located.flaw = (Schema.shape.ofTree v).map ofRecord := by
  rw [← Shape.read_of_after? _ h, read]
  cases Schema.shape.read input <;> rfl

/-- A schema is read from the value at the front of an input. -/
theorem Schema.read_eq_ok {v : Tree} {input rest : Bytes} {s : Schema}
    (h : v.after? input = some rest) (hs : (Schema.shape.ofTree v).map ofRecord = .ok s) :
    read input = .ok s := by
  have hread := (read_of_after? h).trans hs
  cases hinput : read input with
  | error e => rw [hinput] at hread; cases hread
  | ok s' => rw [hinput] at hread; cases hread; rfl

/-- **A schema is read off the value in front.**  Whatever follows the value is not looked at, and
the input is a JSON text only if that is blank, and if all of it is in UTF-8. -/
theorem Schema.read_front {input : Bytes} {s : Schema} (h : read input = .ok s) :
    ∃ (w x rest : Bytes) (o : Outline), input = w ++ (x ++ rest) ∧ Blanks w ∧ o.Laid x ∧
      ∀ rest', read (w ++ (x ++ rest')) = .ok s ∧
        (IsText (w ++ (x ++ rest')) ↔
          Blanks rest' ∧ ∃ cs, w ++ (x ++ rest') = Text.Utf8.encode cs) := by
  obtain ⟨r, hr, hs⟩ := map_eq_ok_iff.1 h
  obtain ⟨v, rest, hv, hof⟩ := Shape.exists_after?_of_read hr
  have hrecord : ∀ reading, v ≠ .scalar reading := Shape.ne_scalar_of_ofTree hof
  obtain ⟨w, x, o, hinput, hw, hx, hfront⟩ := Tree.exists_front hv hrecord
  refine ⟨w, x, rest, o, hinput, hw, hx, ?_⟩
  intro rest'
  refine ⟨read_eq_ok (hfront rest') ?_, isText_iff_of_after? (hfront rest') hrecord⟩
  rw [hof, ← hs]
  rfl

/-- A bracket too many, and a schema that is read in spite of it. -/
theorem Schema.read_front_bracket :
    ∃ s, read (Text.bytes "\x7b\"name\":\"S\"\x7d ]") = .ok s ∧
      ∃ (w x rest : Bytes) (o : Outline),
        Text.bytes "\x7b\"name\":\"S\"\x7d ]" = w ++ (x ++ rest) ∧ Blanks w ∧ o.Laid x ∧
        ∀ rest', read (w ++ (x ++ rest')) = .ok s ∧
          (IsText (w ++ (x ++ rest')) ↔
            Blanks rest' ∧ ∃ cs, w ++ (x ++ rest') = Text.Utf8.encode cs) := by
  have h : read (Text.bytes "\x7b\"name\":\"S\"\x7d ]") = .ok ⟨"S", []⟩ := by decide +kernel
  exact ⟨_, h, read_front h⟩

/-- Two inputs that are no JSON texts, and from which the empty schema is read: one goes on after
its value, and one is not in UTF-8 within a member that is passed over. -/
theorem Schema.read_not_text :
    (read (Text.bytes "\x7b\x7d x") = .ok ⟨"", []⟩ ∧ ¬ IsText (Text.bytes "\x7b\x7d x")) ∧
      (read (Text.bytes "\x7b\"x\":\"" ++ 0xff :: Text.bytes "\"\x7d") = .ok ⟨"", []⟩ ∧
        ¬ IsText (Text.bytes "\x7b\"x\":\"" ++ 0xff :: Text.bytes "\"\x7d")) := by
  constructor
  · refine ⟨by decide +kernel, ?_⟩
    have hv : (Tree.object []).after? (Text.bytes "\x7b\x7d x") = some (Text.bytes " x") := by
      decide +kernel
    rw [isText_iff_of_after? hv (by simp)]
    rintro ⟨hblanks, -⟩
    exact absurd (hblanks (octet 'x') (by decide +kernel)) (by decide)
  · refine ⟨by decide +kernel, ?_⟩
    rintro ⟨⟨cs, hcs⟩, -⟩
    have herror : Text.Utf8.decode (Text.bytes "\x7b\"x\":\"" ++ 0xff :: Text.bytes "\"\x7d") =
        .error 3 := by decide +kernel
    rw [Text.Utf8.decode_eq_ok_iff.2 hcs] at herror
    cases herror

end InterfaceSchema
