import InterfaceSchema.Proofs.Outlines
import InterfaceSchema.Proofs.Printing
import InterfaceSchema.Proofs.Results

/-!
# The spellings of a value

A value of a shape can be spelled in many ways: texts and keys with any of their escapes, the
members of a record in any order and with others besides, members that are as if left out really
left out, and a record as the list of all its members.  `Shape.Spells` says which outlines spell a
value; the blanks between tokens are left to the outline's layout.

* `Tree.members_perm`: the order of members is nothing to what they come to.
* `Shape.ofTree_of_spells`: every spelling of a value is read to that value.
-/

namespace InterfaceSchema.Json

open InterfaceSchema.Text (Bytes)

/-! ### Spellings -/

/-- The scalar is a string literal of the text. -/
def Scalar.IsText (x : Scalar) (t : String) : Prop :=
  ∃ y, x.text = Literal.quote :: (y ++ [Literal.quote]) ∧ Literal.Spells t.toList y

/-- The scalar is the word of the truth value. -/
def Scalar.IsFlag (x : Scalar) (b : Bool) : Prop :=
  x.text = Text.bytes (if b then "true" else "false")

/-- The scalar is the number, without zeros in front. -/
def Scalar.IsInteger (x : Scalar) (n : Int) : Prop := x.text = Text.Utf8.encode (integerText n)

/-- The key is spelled. -/
def Key.Spells (k : Key) (key : String) : Prop := Literal.Spells key.toList k.body

/-- The outline is null. -/
def Outline.IsNull (o : Outline) : Prop := ∃ x, o = .scalar x ∧ x.text = Text.bytes "null"

/-- The keys of a record. -/
def Members.keys : Members → List String
  | .empty         => []
  | .cons k _ _ ms => k :: ms.keys

mutual

/-- The outline spells the value. -/
def Shape.Spells : (s : Shape) → s.Val → Outline → Prop
  | .text, t, o => ∃ x, o = .scalar x ∧ x.IsText t
  | .flag, b, o => ∃ x, o = .scalar x ∧ x.IsFlag b
  | .integer, n, o => ∃ x, o = .scalar x ∧ x.IsInteger n.toInt
  | .nullable _, none, o => o.IsNull
  | .nullable s, some a, o => s.Spells a o
  | .list s, as, o => ∃ os, o = .list os ∧ List.Forall₂ s.Spells as os
  | .record _ ms, r, o =>
    -- an object, with members of other keys anywhere among those of the record
    (∃ os known others, o = .object os ∧ os.Perm (known ++ others) ∧ ms.SpellsNamed r known ∧
      ∀ m ∈ others, ∃ key, m.1.Spells key ∧ key ∉ ms.keys) ∨
    ∃ os, o = .list os ∧ ms.SpellsListed r os

/-- The members of an object spell the values of a record, in the record's own order.  Only what
need not be there, and is as if it were not, is left out. -/
def Members.SpellsNamed : (ms : Members) → ms.Val → List (Key × Outline) → Prop
  | .empty, (), known => known = []
  | .cons key p s ms, (a, r), known =>
    (∃ m known', known = m :: known' ∧ m.1.Spells key ∧ s.Spells a m.2 ∧
      ms.SpellsNamed r known') ∨
    (p ≠ .required ∧ a = s.blank ∧ ms.SpellsNamed r known)

/-- The items of a list spell the values of a record, all of them in order. -/
def Members.SpellsListed : (ms : Members) → ms.Val → List Outline → Prop
  | .empty, (), os => os = []
  | .cons _ _ s ms, (a, r), os => ∃ o os', os = o :: os' ∧ s.Spells a o ∧ ms.SpellsListed r os'

end

mutual

/-- No record has two members of one key, and no null may stand for two things. -/
def Shape.Distinct : Shape → Prop
  | .text | .flag | .integer => True
  | .nullable s => (∀ s', s ≠ .nullable s') ∧ s.Distinct
  | .list s => s.Distinct
  | .record _ ms => ms.Distinct

def Members.Distinct : Members → Prop
  | .empty => True
  | .cons k _ s ms => k ∉ ms.keys ∧ s.Distinct ∧ ms.Distinct

end

/-! ### Scalars -/

/-- A key is read to what it spells. -/
theorem Key.reading_of_spells {k : Key} {key : String} (h : k.Spells key) :
    k.reading = .ok key := by
  rw [Key.reading, Literal.read_of_spells h]
  rfl

theorem Scalar.isText_ofText (t : String) : (ofText t).IsText t :=
  ⟨_, Literal.encode_chars t, Literal.spells_chars t.toList⟩

/-- A text as a key spells itself. -/
theorem Key.spells_ofText (key : String) : (ofText key).Spells key :=
  Literal.spells_chars key.toList

/-- A literal comes to the text that it spells. -/
theorem Outline.tree_of_isText {x : Scalar} {t : String} (h : x.IsText t) :
    (Outline.scalar x).tree = .scalar (.ok (.text t)) := by
  obtain ⟨y, hx, hy⟩ := h
  rw [tree, hx, read_quote, Literal.read_of_spells hy]
  rfl

theorem Outline.tree_of_isNull {o : Outline} (h : o.IsNull) : o.tree = .scalar (.ok .null) := by
  obtain ⟨x, rfl, hx⟩ := h
  rw [tree, hx]
  rfl

theorem Outline.tree_of_isFlag {x : Scalar} {b : Bool} (h : x.IsFlag b) :
    (Outline.scalar x).tree = .scalar (.ok (.boolean b)) := by
  rw [tree, show x.text = _ from h]
  cases b <;> rfl

/-- A whole number of 64 bits comes to itself. -/
theorem Outline.tree_of_isInteger {x : Scalar} {n : Int} (hn : Number.Held n)
    (h : x.IsInteger n) :
    (Outline.scalar x).tree = .scalar (.ok (.integer n)) := by
  rw [tree, show x.text = _ from h, read_integerText hn]
  rfl

/-- Integers of 64 bits with a sign are among those that are held. -/
theorem Number.held_toInt (n : Int64) : Held n.toInt := by
  have hhigh := n.toInt_lt
  have hsize : UInt64.size = 18446744073709551616 := rfl
  exact ⟨n.minValue_le_toInt, by omega⟩

/-- Nothing but what may be null is read from a null. -/
theorem Shape.ofTree_null {s : Shape} (hs : ∀ s', s ≠ .nullable s') (a : s.Val) :
    s.ofTree (.scalar (.ok .null)) ≠ .ok a := by
  intro h
  cases s with
  | nullable s' => exact hs s' rfl
  | text | flag | integer | list | record => cases h

/-! ### Members of an object -/

namespace Tree
variable {α : Type} {put : String → Tree → α → Except Flaw α} {a b : α}

/-- Members come to something if the first does and then the others do. -/
theorem members_cons_eq_ok_iff {key : Except Flaw String} {v : Tree}
    {ms : List (Except Flaw String × Tree)} :
    members put a ((key, v) :: ms) = .ok b ↔
      ∃ k a', key = .ok k ∧ put k v a = .ok a' ∧ members put a' ms = .ok b := by
  cases key with
  | error flaw => simp [members]
  | ok k => cases hput : put k v a <;> simp [members, hput]

/-- Members come to something if the first of them do and then the rest does. -/
theorem members_append_eq_ok_iff {ms ms' : List (Except Flaw String × Tree)} :
    members put a (ms ++ ms') = .ok b ↔
      ∃ a', members put a ms = .ok a' ∧ members put a' ms' = .ok b := by
  induction ms generalizing a with
  | nil => simp [members]
  | cons m ms ih =>
      obtain ⟨key, v⟩ := m
      simp only [List.cons_append, members_cons_eq_ok_iff, ih]
      constructor
      · rintro ⟨k, a', hkey, hput, a'', hms, hms'⟩
        exact ⟨a'', ⟨k, a', hkey, hput, hms⟩, hms'⟩
      · rintro ⟨a'', ⟨k, a', hkey, hput, hms⟩, hms'⟩
        exact ⟨k, a', hkey, hput, a'', hms, hms'⟩

/-- **The order of members is nothing to what they come to**, where two of them that can be put
one after the other can be put the other way round. -/
theorem members_perm
    (hswap : ∀ {k k' : String} {v v' : Tree} {a b c : α}, put k v a = .ok b → put k' v' b = .ok c →
      ∃ b', put k' v' a = .ok b' ∧ put k v b' = .ok c)
    {ms ms' : List (Except Flaw String × Tree)} (hperm : ms.Perm ms')
    (h : members put a ms = .ok b) : members put a ms' = .ok b := by
  induction hperm generalizing a with
  | nil => exact h
  | cons m _ ih =>
      obtain ⟨k, a', hkey, hput, hms⟩ := members_cons_eq_ok_iff.1 h
      exact members_cons_eq_ok_iff.2 ⟨k, a', hkey, hput, ih hms⟩
  | swap m m' ms =>
      obtain ⟨k, a', hkey, hput, hlater⟩ := members_cons_eq_ok_iff.1 h
      obtain ⟨k', a'', hkey', hput', hms⟩ := members_cons_eq_ok_iff.1 hlater
      obtain ⟨b', hfirst, hsecond⟩ := hswap hput hput'
      exact members_cons_eq_ok_iff.2
        ⟨k', b', hkey', hfirst, members_cons_eq_ok_iff.2 ⟨k, a'', hkey, hsecond, hms⟩⟩
  | trans _ _ ih ih' => exact ih' (ih h)

/-- What is not null is read as it is. -/
theorem nullable_of_ne_null {f : Tree → Except Flaw α} {v : Tree} (h : v ≠ .scalar (.ok .null)) :
    nullable f v = (f v).map some := by
  unfold nullable
  split
  · exact absurd rfl h
  · rfl

end Tree

namespace Members
variable {k key key' : String} {p : Presence} {s : Shape} {ms : Members} {v v' : Tree}

/-- A member is put once, to what its value comes to. -/
theorem put_self_eq_ok_iff {slot : Option s.Val} {slots : ms.Slots}
    {after : Option s.Val × ms.Slots} : (cons k p s ms).put k v (slot, slots) = .ok after ↔
      slot = none ∧ ∃ a, Tree.member k s.ofTree v = .ok a ∧ (some a, slots) = after := by
  constructor
  · intro h
    cases slot with
    | none => exact ⟨rfl, map_eq_ok_iff.1 (put_unmet.symm.trans h)⟩
    | some a => cases put_met.symm.trans h
  · rintro ⟨rfl, h⟩
    exact put_unmet.trans (map_eq_ok_iff.2 h)

/-- Another member is put past the first. -/
theorem put_ne_eq_ok_iff (h : key ≠ k) {slot : Option s.Val} {slots : ms.Slots}
    {after : Option s.Val × ms.Slots} : (cons k p s ms).put key v (slot, slots) = .ok after ↔
      ∃ slots', ms.put key v slots = .ok slots' ∧ (slot, slots') = after := by
  constructor
  · intro hput
    exact map_eq_ok_iff.1 ((put_of_ne h).symm.trans hput)
  · intro hput
    exact (put_of_ne h).trans (map_eq_ok_iff.2 hput)

/-- Two members go into the slots in either order. -/
theorem put_swap : ∀ {ms : Members} {a b c : ms.Slots}, ms.put key v a = .ok b →
    ms.put key' v' b = .ok c → ∃ b', ms.put key' v' a = .ok b' ∧ ms.put key v b' = .ok c
  | .empty, (), (), (), _, _ => ⟨(), rfl, rfl⟩
  | .cons k p s ms, (slot, slots), b, c, hput, hput' => by
      by_cases hkey : key = k <;> by_cases hkey' : key' = k
      · -- the second of them would find the slot taken
        subst hkey hkey'
        obtain ⟨rfl, a, -, rfl⟩ := put_self_eq_ok_iff.1 hput
        cases (put_self_eq_ok_iff.1 hput').1
      · subst hkey
        obtain ⟨rfl, a, ha, rfl⟩ := put_self_eq_ok_iff.1 hput
        obtain ⟨slots', hslots, rfl⟩ := (put_ne_eq_ok_iff hkey').1 hput'
        exact ⟨(none, slots'), (put_ne_eq_ok_iff hkey').2 ⟨slots', hslots, rfl⟩,
          put_self_eq_ok_iff.2 ⟨rfl, a, ha, rfl⟩⟩
      · subst hkey'
        obtain ⟨slots', hslots, rfl⟩ := (put_ne_eq_ok_iff hkey).1 hput
        obtain ⟨rfl, a, ha, rfl⟩ := put_self_eq_ok_iff.1 hput'
        exact ⟨(some a, slots), put_self_eq_ok_iff.2 ⟨rfl, a, ha, rfl⟩,
          (put_ne_eq_ok_iff hkey).2 ⟨slots', hslots, rfl⟩⟩
      · obtain ⟨slots', hslots, rfl⟩ := (put_ne_eq_ok_iff hkey).1 hput
        obtain ⟨slots'', hslots', rfl⟩ := (put_ne_eq_ok_iff hkey').1 hput'
        obtain ⟨b', hfirst, hsecond⟩ := put_swap hslots hslots'
        exact ⟨(slot, b'), (put_ne_eq_ok_iff hkey').2 ⟨b', hfirst, rfl⟩,
          (put_ne_eq_ok_iff hkey).2 ⟨slots'', hsecond, rfl⟩⟩

/-- A member of another key is passed over. -/
theorem put_of_not_mem : ∀ {ms : Members} {slots : ms.Slots}, key ∉ ms.keys →
    ms.put key v slots = .ok slots
  | .empty, (), _ => rfl
  | .cons k p s ms, (slot, slots), h => by
      obtain ⟨hne, hlater⟩ : key ≠ k ∧ key ∉ ms.keys := by simpa [keys] using h
      exact (put_ne_eq_ok_iff hne).2 ⟨slots, put_of_not_mem hlater, rfl⟩

/-- Members that the record does not know change nothing. -/
theorem members_of_not_mem {slots : ms.Slots} {os : List (Key × Outline)}
    (h : ∀ m ∈ os, ∃ key, m.1.Spells key ∧ key ∉ ms.keys) :
    Tree.members ms.put slots (Outline.memberTrees os) = .ok slots := by
  induction os with
  | nil => rfl
  | cons m os ih =>
      obtain ⟨key, hkey, hmem⟩ := h m List.mem_cons_self
      exact Tree.members_cons_eq_ok_iff.2 ⟨key, slots, Key.reading_of_spells hkey,
        put_of_not_mem hmem, ih fun m' hm' => h m' (List.mem_cons_of_mem m hm')⟩

/-- Members of a record's later keys leave its first slot alone. -/
theorem members_of_ne {slot : Option s.Val} {slots slots' : ms.Slots}
    {os : List (Except Flaw String × Tree)} (hkeys : ∀ m ∈ os, m.1 ≠ .ok k)
    (h : Tree.members ms.put slots os = .ok slots') :
    Tree.members (cons k p s ms).put (slot, slots) os = .ok (slot, slots') := by
  induction os generalizing slots with
  | nil =>
      cases h
      rfl
  | cons m os ih =>
      obtain ⟨key, slots'', hkey, hput, hos⟩ := Tree.members_cons_eq_ok_iff.1 h
      have hne : key ≠ k := by
        rintro rfl
        exact hkeys m List.mem_cons_self hkey
      exact Tree.members_cons_eq_ok_iff.2 ⟨key, (slot, slots''), hkey,
        (put_ne_eq_ok_iff hne).2 ⟨slots'', hput, rfl⟩,
        ih (fun m' hm' => hkeys m' (List.mem_cons_of_mem m hm')) hos⟩

/-- The members of an object have keys of the record. -/
theorem SpellsNamed.keys : ∀ {ms : Members} {r : ms.Val} {known : List (Key × Outline)},
    ms.SpellsNamed r known → ∀ m ∈ known, ∃ key, m.1.Spells key ∧ key ∈ ms.keys
  | .empty, (), _, h, m, hm => by
      obtain rfl := h
      cases hm
  | .cons k p s ms, (a, r), known, h, m, hm => by
      rcases h with ⟨m', known', rfl, hkey, -, hlater⟩ | ⟨-, -, hlater⟩
      · rcases List.mem_cons.1 hm with rfl | hm
        · exact ⟨k, hkey, List.mem_cons_self⟩
        · obtain ⟨key, hspells, hmem⟩ := SpellsNamed.keys hlater m hm
          exact ⟨key, hspells, List.mem_cons_of_mem k hmem⟩
      · obtain ⟨key, hspells, hmem⟩ := SpellsNamed.keys hlater m hm
        exact ⟨key, hspells, List.mem_cons_of_mem k hmem⟩

end Members

/-! ### Shapes -/

/-- Items that each come to something come to the list of these. -/
theorem Tree.items_of_forall₂ {α : Type} {f : Tree → Except Flaw α} {R : α → Outline → Prop}
    (hf : ∀ {a o}, R a o → f o.tree = .ok a) {as : List α} {os : List Outline}
    (h : List.Forall₂ R as os) (i : Nat) : items f i (Outline.trees os) = .ok as := by
  induction h generalizing i with
  | nil => rfl
  | cons ho _ ih =>
      rw [Outline.trees, items, hf ho]
      simp only [ih (i + 1), Except.map]

mutual

/-- **Every spelling of a value is read to it.** -/
theorem Shape.ofTree_of_spells : ∀ {s : Shape} {a : s.Val} {o : Outline}, s.Distinct →
    s.Spells a o → s.ofTree o.tree = .ok a
  | .text, t, _, _, ⟨x, rfl, hx⟩ => by
      rw [Outline.tree_of_isText hx]
      rfl
  | .flag, b, _, _, ⟨x, rfl, hx⟩ => by
      rw [Outline.tree_of_isFlag hx]
      rfl
  | .integer, n, _, _, ⟨x, rfl, hx⟩ => by
      have hlow : Int64.minValue.toInt ≤ n.toInt := n.le_toInt
      have hhigh : n.toInt ≤ Int64.maxValue.toInt := Int.le_of_lt_add_one n.toInt_lt
      rw [Outline.tree_of_isInteger (Number.held_toInt n) hx]
      simp only [Shape.ofTree, Tree.accept, Tree.token, hlow, hhigh, and_self, if_true]
      exact congrArg Except.ok (Int64.ofInt_toInt n)
  | .nullable s, none, o, _, h => by
      rw [Outline.tree_of_isNull h]
      rfl
  | .nullable s, some a, o, hs, h => by
      have hread := Shape.ofTree_of_spells hs.2 h
      have hnull : o.tree ≠ .scalar (.ok .null) := by
        intro hnull
        rw [hnull] at hread
        exact Shape.ofTree_null hs.1 a hread
      rw [Shape.ofTree, Tree.nullable_of_ne_null hnull, hread]
      rfl
  | .list s, as, _, hs, ⟨os, rfl, hos⟩ =>
      Tree.items_of_forall₂ (f := s.ofTree)
        (fun ho => Shape.ofTree_of_spells (s := s) hs ho) hos 0
  | .record title ms, r, _, hs, .inl ⟨os, known, others, rfl, hperm, hknown, hothers⟩ => by
      obtain ⟨slots, hslots, hr⟩ := Members.members_of_spells hs hknown
      have hinorder : Tree.members ms.put ms.noSlots (Outline.memberTrees (known ++ others)) =
          .ok slots := by
        rw [Outline.memberTrees_eq, List.map_append, ← Outline.memberTrees_eq,
          ← Outline.memberTrees_eq]
        exact Tree.members_append_eq_ok_iff.2 ⟨slots, hslots, Members.members_of_not_mem hothers⟩
      have hall : Tree.members ms.put ms.noSlots (Outline.memberTrees os) = .ok slots := by
        refine Tree.members_perm ?swap ?perm hinorder
        case swap => exact Members.put_swap
        case perm =>
          rw [Outline.memberTrees_eq, Outline.memberTrees_eq]
          exact (hperm.map _).symm
      show Tree.named ms.put ms.noSlots ms.ofSlots (Outline.memberTrees os) = _
      rw [Tree.named, hall]
      simp only [hr]
      rfl
  | .record title ms, r, _, hs, .inr ⟨os, rfl, hos⟩ =>
      Members.ofItems_of_spells title ms.size 0 hs hos

/-- The members of an object fill the slots with the values. -/
theorem Members.members_of_spells : ∀ {ms : Members} {r : ms.Val} {known : List (Key × Outline)},
    ms.Distinct → ms.SpellsNamed r known → ∃ slots,
      Tree.members ms.put ms.noSlots (Outline.memberTrees known) = .ok slots ∧
        ms.ofSlots slots = .ok r
  | .empty, (), _, _, h => by
      obtain rfl := h
      exact ⟨(), rfl, rfl⟩
  | .cons k p s ms, (a, r), known, hs, h => by
      obtain ⟨hk, hs, hms⟩ := hs
      have hkeys : ∀ {os}, ms.SpellsNamed r os → ∀ m ∈ Outline.memberTrees os, m.1 ≠ .ok k := by
        intro os hos m hm hmk
        rw [Outline.memberTrees_eq] at hm
        obtain ⟨m', hm', rfl⟩ := List.mem_map.1 hm
        obtain ⟨key, hkey, hmem⟩ := hos.keys m' hm'
        obtain rfl : key = k := Except.ok.inj ((Key.reading_of_spells hkey).symm.trans hmk)
        exact hk hmem
      rcases h with ⟨m, known', rfl, hkey, ha, hlater⟩ | ⟨hp, rfl, hlater⟩
      · obtain ⟨slots, hslots, hr⟩ := Members.members_of_spells hms hlater
        refine ⟨(some a, slots), ?_, ?_⟩
        · have hread : Tree.member k s.ofTree m.2.tree = .ok a := by
            rw [Tree.member, Shape.ofTree_of_spells hs ha]
            rfl
          exact Tree.members_cons_eq_ok_iff.2 ⟨k, (some a, ms.noSlots),
            Key.reading_of_spells hkey, Members.put_self_eq_ok_iff.2 ⟨rfl, a, hread, rfl⟩,
            Members.members_of_ne (hkeys hlater) hslots⟩
        · simp only [Members.ofSlots, hr]
          rfl
      · obtain ⟨slots, hslots, hr⟩ := Members.members_of_spells hms hlater
        refine ⟨(none, slots), Members.members_of_ne (hkeys hlater) hslots, ?_⟩
        cases p with
        | required => exact absurd rfl hp
        | omissible | defaulted =>
            simp only [Members.ofSlots, hr]
            rfl

/-- Items that spell a record, all of them, are read to it. -/
theorem Members.ofItems_of_spells (title : String) (size : Nat) : ∀ (i : Nat) {ms : Members}
    {r : ms.Val} {os : List Outline}, ms.Distinct → ms.SpellsListed r os →
      ms.ofItems title size i (Outline.trees os) = .ok r
  | i, .empty, (), _, _, h => by
      obtain rfl := h
      rfl
  | i, .cons k p s ms, (a, r), _, hs, ⟨o, os, rfl, ho, hos⟩ => by
      have hread := Shape.ofTree_of_spells hs.2.1 ho
      have hlater := Members.ofItems_of_spells title size (i + 1) hs.2.2 hos
      simp only [Members.ofItems, Outline.trees, Tree.listItem, hread, hlater]
      rfl

end

end InterfaceSchema.Json
