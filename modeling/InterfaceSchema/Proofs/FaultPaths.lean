import InterfaceSchema.Idl.Wire
import InterfaceSchema.Proofs.Spellings
import InterfaceSchema.Proofs.ValueTexts

/-!
# Where faults are

An entry of a list is read as it is read alone.  If it has a fault and nothing before it has one,
then that fault is the fault of the whole, and its path goes on from the place of the entry.  So it
is with the types of a schema and with the fields of a type, whatever is wrong with the entry and
whatever stands after it.

* `Tree.items_eq_error`, `Shape.object_eq_error`, `Shape.listed_eq_error`: the flaw of a part is
  that of the whole.
* `Shape.read_object_error`, `Shape.read_listed_error`: so is the fault of an entry, text for text.
* `fault_of_entry`: types in schemas and fields in types.
-/

namespace InterfaceSchema.Json

open InterfaceSchema.Text (Bytes)

/-! ### Parts of a value -/

namespace Tree
variable {α β : Type} {v : Tree} {flaw : Flaw}

/-- The first item with a flaw decides, at its place. -/
theorem items_eq_error {f : Tree → Except Flaw α} {before after : List Tree}
    (hbefore : ∀ u ∈ before, ∃ a, f u = .ok a) (hv : f v = .error flaw) (i : Nat) :
    items f i (before ++ v :: after) = .error (flaw.within (.item (i + before.length))) := by
  induction before generalizing i with
  | nil =>
      rw [List.nil_append, items, hv]
      rfl
  | cons u before ih =>
      obtain ⟨a, ha⟩ := hbefore u List.mem_cons_self
      have hlater := ih (fun w hw => hbefore w (List.mem_cons_of_mem u hw)) (i + 1)
      rw [Nat.succ_add_eq_add_succ] at hlater
      simp only [List.cons_append, items, ha, hlater]
      rfl

variable {put : String → Tree → α → Except Flaw α}

/-- The first member that cannot be put decides. -/
theorem members_eq_error {before after : List (Except Flaw String × Tree)} {key : String}
    {a b : α} (hbefore : members put a before = .ok b) (hput : put key v b = .error flaw) :
    members put a (before ++ (.ok key, v) :: after) = .error flaw := by
  induction before generalizing a with
  | nil =>
      cases hbefore
      rw [List.nil_append, members, hput]
  | cons m before ih =>
      obtain ⟨k, w⟩ := m
      obtain ⟨k, a', rfl, hm, hlater⟩ := members_cons_eq_ok_iff.1 hbefore
      simp only [List.cons_append, members, hm]
      exact ih hlater

theorem exists_members_of_named {start : α} {finish : α → Except Cause β}
    {ms : List (Except Flaw String × Tree)} {b : β} (h : named put start finish ms = .ok b) :
    ∃ a, members put start ms = .ok a := by
  rw [named] at h
  split at h
  · cases h
  · next a ha => exact ⟨a, ha⟩

end Tree

/-- The shape of the member `key`. -/
def Members.shape? : Members → String → Option Shape
  | .empty,         _   => none
  | .cons k _ s ms, key => if key = k then some s else ms.shape? key

/-- The shape of member number `i`. -/
def Members.nth? : Members → Nat → Option Shape
  | .empty,         _     => none
  | .cons _ _ s _,  0     => some s
  | .cons _ _ _ ms, i + 1 => ms.nth? i

/-- Lists of values of the shape `s` are read, and maybe nulls. -/
inductive Shape.Lists (s : Shape) : Shape → Prop where
  | list : Lists s (.list s)
  | nullable {s' : Shape} (h : Lists s s') : Lists s (.nullable s')

namespace Members
variable {key : String} {s : Shape} {v v' : Tree} {flaw : Flaw}

/-- Where one value could be put, the flaw of another is found under the key. -/
theorem put_eq_error : ∀ {ms : Members} {slots slots' : ms.Slots}, ms.shape? key = some s →
    ms.put key v slots = .ok slots' → s.ofTree v' = .error flaw →
      ms.put key v' slots = .error (flaw.within (.key key))
  | .cons k p s' ms, (slot, slots), _, hshape, hput, hv => by
      by_cases hkey : key = k
      · subst hkey
        obtain rfl : s' = s := by simpa [shape?] using hshape
        obtain ⟨rfl, -⟩ := put_self_eq_ok_iff.1 hput
        rw [put_unmet, Tree.member, hv]
        rfl
      · obtain ⟨slots', hslots, -⟩ := (put_ne_eq_ok_iff hkey).1 hput
        have hlater : ms.shape? key = some s := by simpa [shape?, hkey] using hshape
        rw [put_of_ne hkey, put_eq_error hlater hslots hv]
        rfl

/-- Where one value could be an item, the flaw of another is found at its place. -/
theorem ofItems_eq_error (title : String) (size : Nat) : ∀ {i : Nat} {ms : Members}
    {before after after' : List Tree} {r : ms.Val}, ms.nth? before.length = some s →
      ms.ofItems title size i (before ++ v :: after) = .ok r → s.ofTree v' = .error flaw →
        ms.ofItems title size i (before ++ v' :: after') =
          .error (flaw.within (.item (i + before.length)))
  | i, .cons k p s' ms, [], _, _, _, hnth, _, hv => by
      obtain rfl : s' = s := Option.some.inj hnth
      simp only [List.nil_append, ofItems, Tree.listItem, hv]
      rfl
  | i, .cons k p s' ms, u :: before, after, after', _, hnth, hread, hv => by
      simp only [List.cons_append, ofItems, Tree.listItem] at hread ⊢
      split at hread
      · cases hread
      · next a ha =>
          obtain ⟨r, hr, -⟩ := map_eq_ok_iff.1 hread
          have hlater : ms.ofItems title size (i + 1) (before ++ v' :: after') = _ :=
            ofItems_eq_error title size (by exact hnth) hr hv
          rw [Nat.succ_add_eq_add_succ] at hlater
          simp only [hlater]
          rfl

end Members

namespace Shape
variable {title : String} {ms : Members} {s s' : Shape} {v v' : Tree} {flaw : Flaw}

/-- The flaw of an item is that of its list. -/
theorem Lists.eq_error (h : s.Lists s') {before after : List Tree}
    (hbefore : ∀ u ∈ before, ∃ a, s.ofTree u = .ok a) (hv : s.ofTree v = .error flaw) :
    s'.ofTree (.list (before ++ v :: after)) = .error (flaw.within (.item before.length)) := by
  induction h with
  | list =>
      have hitems : Tree.items s.ofTree 0 (before ++ v :: after) = _ :=
        Tree.items_eq_error hbefore hv 0
      rwa [Nat.zero_add] at hitems
  | nullable _ ih => exact map_eq_error_iff.2 ih

/-- The flaw of a member is that of its record. -/
theorem object_eq_error {key : String} (hshape : ms.shape? key = some s)
    {before after after' : List (Except Flaw String × Tree)} {r : ms.Val}
    (hread : (record title ms).ofTree (.object (before ++ (.ok key, v) :: after)) = .ok r)
    (hv : s.ofTree v' = .error flaw) :
    (record title ms).ofTree (.object (before ++ (.ok key, v') :: after')) =
      .error (flaw.within (.key key)) := by
  obtain ⟨slots, hslots⟩ := Tree.exists_members_of_named hread
  obtain ⟨met, hbefore, hlater⟩ := Tree.members_append_eq_ok_iff.1 hslots
  obtain ⟨key', met', hkey, hput, -⟩ := Tree.members_cons_eq_ok_iff.1 hlater
  cases hkey
  have hmembers : Tree.members ms.put ms.noSlots (before ++ (.ok key, v') :: after') = _ :=
    Tree.members_eq_error hbefore (ms.put_eq_error hshape hput hv)
  show Tree.named ms.put ms.noSlots ms.ofSlots _ = _
  simp only [Tree.named, hmembers]
  rfl

/-- So it is in a record that stands as a list. -/
theorem listed_eq_error {before after after' : List Tree} (hshape : ms.nth? before.length = some s)
    {r : ms.Val} (hread : (record title ms).ofTree (.list (before ++ v :: after)) = .ok r)
    (hv : s.ofTree v' = .error flaw) :
    (record title ms).ofTree (.list (before ++ v' :: after')) =
      .error (flaw.within (.item before.length)) := by
  have hitems : ms.ofItems title ms.size 0 (before ++ v' :: after') = _ :=
    Members.ofItems_eq_error title ms.size hshape hread hv
  rwa [Nat.zero_add] at hitems

end Shape

/-! ### Faults of entries -/

/-- The first of the values that is not read is number `i`, and `e` is its fault. -/
inductive FirstFault {α : Type} (read : Bytes → Except Located α) (e : Located) :
    List ValueText → Nat → Prop where
  | mk {before later : List ValueText} {x : ValueText}
      (hbefore : ∀ y ∈ before, ∃ a, read y.text = .ok a) (hx : read x.text = .error e) :
      FirstFault read e (before ++ x :: later) before.length

/-- The fault `e'` is the fault `e` seen from further out, in another text: it has the same cause,
and its path takes some steps before that of `e`. -/
structure Located.Under (steps : Path) (e e' : Located) : Prop where
  cause : e'.cause = e.cause
  path : e'.path = steps ++ e.path

section
variable {e : Located} {xs : List ValueText} {i : Nat}

theorem FirstFault.second {α : Type} {read : Bytes → Except Located α} {x y : ValueText}
    (hx : ∃ a, read x.text = .ok a) (hy : read y.text = .error e) : FirstFault read e [x, y] 1 :=
  @FirstFault.mk α read e [x] [] y (List.forall_mem_singleton.2 hx) hy

theorem FirstFault.of_map {α β : Type} {read : Bytes → Except Located α} {f : α → β}
    (h : FirstFault (fun x => (read x).map f) e xs i) : FirstFault read e xs i := by
  cases h with
  | mk hbefore hx =>
      exact .mk (fun y hy => exists_map_eq_ok_iff.1 (hbefore y hy)) (map_eq_error_iff.1 hx)

/-- The path as messages show it. -/
theorem Located.Under.path_text {e' : Located} {key : String}
    (h : e.Under [.key key, .item i] e') :
    e'.path.text = key ++ ("[" ++ toString i ++ "]" ++ e.path.continued) := by
  rw [h.path]
  rfl

/-- A flaw two steps down is a fault there. -/
theorem ValueText.read_error_under {x : ValueText} {s : Shape} {outer inner : Step}
    (h : s.ofTree x.outline.tree = .error ((e.flaw.within inner).within outer)) :
    ∃ e', s.read x.text = .error e' ∧ e.Under [outer, inner] e' := by
  obtain ⟨e', he', hflaw⟩ := read_eq_error h
  exact ⟨e', he', congrArg Flaw.cause hflaw, congrArg Flaw.path hflaw⟩

namespace Shape
variable {title : String} {ms : Members} {s s' : Shape} {r : ms.Val}

/-- The first fault of an entry is the flaw of the list. -/
theorem Lists.eq_error_of_firstFault (h : s.Lists s') (hfirst : FirstFault s.read e xs i) :
    s'.ofTree (ValueText.list xs).outline.tree = .error (e.flaw.within (.item i)) := by
  cases hfirst with
  | @mk before later x hbefore hx =>
      have hentries : ∀ u ∈ before.map (·.outline.tree), ∃ a, s.ofTree u = .ok a := by
        intro u hu
        obtain ⟨y, hy, rfl⟩ := List.mem_map.1 hu
        obtain ⟨a, ha⟩ := hbefore y hy
        exact ⟨a, ValueText.ofTree_of_read ha⟩
      rw [ValueText.tree_list, List.map_append, List.map_cons,
        h.eq_error hentries (ValueText.ofTree_of_read_error hx), List.length_map]

/-- **The first fault of an entry under a key is the fault of the record**, in every object that
could be read up to there. -/
theorem read_object_error {k : Key} {key : String} (hkey : k.Spells key)
    (hshape : ms.shape? key = some s') (hlists : s.Lists s') {before after after' : List MemberText}
    {v : ValueText}
    (hread : (record title ms).read (ValueText.object (before ++ .of k v :: after)).text = .ok r)
    (hfirst : FirstFault s.read e xs i) :
    ∃ e', (record title ms).read
        (ValueText.object (before ++ .of k (.list xs) :: after')).text = .error e' ∧
      e.Under [.key key, .item i] e' := by
  have htree := ValueText.ofTree_of_read hread
  rw [ValueText.tree_object, List.map_append, List.map_cons, MemberText.of,
    Key.reading_of_spells hkey] at htree
  refine ValueText.read_error_under ?_
  rw [ValueText.tree_object, List.map_append, List.map_cons, MemberText.of,
    Key.reading_of_spells hkey]
  exact object_eq_error hshape htree (hlists.eq_error_of_firstFault hfirst)

/-- So it is where the record stands as a list. -/
theorem read_listed_error {before after after' : List ValueText} {v : ValueText}
    (hshape : ms.nth? before.length = some s') (hlists : s.Lists s')
    (hread : (record title ms).read (ValueText.list (before ++ v :: after)).text = .ok r)
    (hfirst : FirstFault s.read e xs i) :
    ∃ e', (record title ms).read (ValueText.list (before ++ .list xs :: after')).text = .error e' ∧
      e.Under [.item before.length, .item i] e' := by
  have htree := ValueText.ofTree_of_read hread
  rw [ValueText.tree_list, List.map_append, List.map_cons] at htree
  rw [← List.length_map (·.outline.tree)] at hshape
  refine ValueText.read_error_under ?_
  rw [ValueText.tree_list, List.map_append, List.map_cons,
    listed_eq_error hshape htree (hlists.eq_error_of_firstFault hfirst), List.length_map]

end Shape
end

end InterfaceSchema.Json

namespace InterfaceSchema

open Json
open InterfaceSchema.Text (Bytes)

/-- **The fault of the first entry that has one is the fault of the whole.**  Its path leads to the
entry and goes on as the entry's own; its cause, and so its category and its message but for the
place, is that of the entry read alone.  So it is with the types of a schema, and with the fields of
a type, whatever members a type has before them and after.  In a type that stands as a list the
fields have a place and no key. -/
theorem fault_of_entry :
    (∀ (xs : List ValueText) (i : Nat) (e : Located), FirstFault TypeDef.read e xs i →
      ∃ e', Schema.read (Text.bytes "\x7b\"types\":[" ++
          (commas (xs.map (·.text)) ++ Text.bytes "]\x7d")) = .error e' ∧
        e.Under [.key "types", .item i] e' ∧
        e'.path.text = "types" ++ ("[" ++ toString i ++ "]" ++ e.path.continued)) ∧
    (∀ (before after after' : List MemberText) (k : Key) (v : ValueText) (t : TypeDef)
      (xs : List ValueText) (i : Nat) (e : Located), k.Spells "fields" →
      TypeDef.read (ValueText.object (before ++ .of k v :: after)).text = .ok t →
      FirstFault Field.read e xs i →
      ∃ e', TypeDef.read (ValueText.object (before ++ .of k (.list xs) :: after')).text =
          .error e' ∧
        e.Under [.key "fields", .item i] e') ∧
    (∀ (before after after' : List ValueText) (v : ValueText) (t : TypeDef)
      (xs : List ValueText) (i : Nat) (e : Located), before.length = 3 →
      TypeDef.read (ValueText.list (before ++ v :: after)).text = .ok t →
      FirstFault Field.read e xs i →
      ∃ e', TypeDef.read (ValueText.list (before ++ .list xs :: after')).text = .error e' ∧
        e.Under [.item 3, .item i] e') := by
  refine ⟨?_, ?_, ?_⟩
  · intro xs i e hfirst
    -- a schema without types is read, so nothing stands against its types
    have hnone : Schema.read (ValueText.object ([] ++ [.of (.ofText "types") (.list [])])).text =
        .ok ⟨"", []⟩ := by decide +kernel
    obtain ⟨r, hr, -⟩ := map_eq_ok_iff.1 hnone
    have hkey := Key.spells_ofText "types"
    obtain ⟨e', he', hunder⟩ := Shape.read_object_error hkey rfl .list hr hfirst.of_map
    have htext : (ValueText.object ([] ++ [.of (.ofText "types") (.list xs)])).text =
        Text.bytes "\x7b\"types\":[" ++ (commas (xs.map (·.text)) ++ Text.bytes "]\x7d") :=
      ValueText.text_object_list [] _ xs (by decide +kernel)
    rw [← htext]
    exact ⟨e', map_eq_error_iff.2 he', hunder, hunder.path_text⟩
  · intro before after after' k v t xs i e hkey hread hfirst
    obtain ⟨r, hr, -⟩ := map_eq_ok_iff.1 hread
    obtain ⟨e', he', hunder⟩ := Shape.read_object_error hkey rfl (.nullable .list) hr hfirst.of_map
    exact ⟨e', map_eq_error_iff.2 he', hunder⟩
  · intro before after after' v t xs i e hlength hread hfirst
    obtain ⟨r, hr, -⟩ := map_eq_ok_iff.1 hread
    obtain ⟨e', he', hunder⟩ := Shape.read_listed_error (by rw [hlength]; rfl) (.nullable .list) hr
      hfirst.of_map
    exact ⟨e', map_eq_error_iff.2 he', hlength ▸ hunder⟩

/-- The second type has a fault in its second field. -/
theorem fault_of_entry_type :
    let plain := Text.bytes "\x7b\"name\":\"U\",\"type\":\"String\"\x7d"
    let good := Text.bytes "\x7b\"name\":\"a\",\"type\":\"U\"\x7d"
    let bad := Text.bytes "\x7b\"name\":\"b\",\"type\":5\x7d"
    let struct := Text.bytes "\x7b\"name\":\"T\",\"type\":\"Struct\",\"fields\":[" ++
      (commas [good, bad] ++ Text.bytes "]\x7d")
    ∃ e, Schema.read (Text.bytes "\x7b\"types\":[" ++
        (commas [plain, struct] ++ Text.bytes "]\x7d")) = .error e ∧
      e.cause = .wrongKind (.integer 5) .text ∧ e.path.text = "types[1].fields[1].type" := by
  intro plain good bad struct
  have hscalar : ∀ {x : Bytes} (t : Token), (Tree.scalar (.ok t)).after? x = some [] →
      ∃ y : ValueText, y.text = x := fun _ h => ValueText.exists_of_after? h
  have hpair : ∀ {x : Bytes} (name : String) (t : Token), (Tree.object [(.ok "name",
      .scalar (.ok (.text name))), (.ok "type", .scalar (.ok t))]).after? x = some [] →
      ∃ y : ValueText, y.text = x := fun _ _ h => ValueText.exists_of_after? h
  obtain ⟨p, hp⟩ := hpair (x := plain) "U" (.text "String") (by decide +kernel)
  obtain ⟨g, hg⟩ := hpair (x := good) "a" (.text "U") (by decide +kernel)
  obtain ⟨b, hb⟩ := hpair (x := bad) "b" (.integer 5) (by decide +kernel)
  obtain ⟨n, hn⟩ := hscalar (x := Text.bytes "\"T\"") (.text "T") (by decide +kernel)
  obtain ⟨f, hf⟩ := hscalar (x := Text.bytes "\"Struct\"") (.text "Struct") (by decide +kernel)
  let fault : Located := ⟨[.key "type"], .wrongKind (.integer 5) .text, 1, 20⟩
  have hfields : FirstFault Field.read fault [g, b] 1 := by
    refine .second ?_ ?_
    · exact ⟨⟨"a", "U", false, none, none⟩, by rw [hg]; decide +kernel⟩
    · rw [hb]
      decide +kernel
  let before : List MemberText := [.of (.ofText "name") n, .of (.ofText "type") f]
  let fields : List ValueText → ValueText := fun xs =>
    .object (before ++ .of (.ofText "fields") (.list xs) :: [])
  have hfields_text : ∀ xs, (fields xs).text =
      Text.bytes "\x7b\"name\":\"T\",\"type\":\"Struct\",\"fields\":[" ++
        (commas (xs.map (·.text)) ++ Text.bytes "]\x7d") := by
    intro xs
    refine ValueText.text_object_list before (.ofText "fields") xs ?_
    simp only [before, List.map_cons, List.map_nil, MemberText.text_of, hn, hf]
    decide +kernel
  -- the type without its fields is read
  have hread : TypeDef.read (fields []).text = .ok ⟨"T", "Struct", none, .struct []⟩ := by
    rw [hfields_text]
    decide +kernel
  obtain ⟨e', he', hunder⟩ := fault_of_entry.2.1 before [] [] (.ofText "fields") (.list []) _ [g, b]
    1 fault (Key.spells_ofText "fields") hread hfields
  have htypes : FirstFault TypeDef.read e' [p, fields [g, b]] 1 := by
    refine .second ?_ he'
    exact ⟨⟨"U", "String", none, .bare⟩, by rw [hp]; decide +kernel⟩
  obtain ⟨e'', he'', houter, htext⟩ := fault_of_entry.1 _ 1 e' htypes
  refine ⟨e'', ?_, houter.cause.trans hunder.cause, ?_⟩
  · rw [← he'', List.map_cons, List.map_cons, List.map_nil, hfields_text, List.map_cons,
      List.map_cons, List.map_nil, hp, hg, hb]
  · rw [htext, hunder.path]
    decide +kernel

end InterfaceSchema
