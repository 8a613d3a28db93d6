import InterfaceSchema.Proofs.Outlines

/-!
# Texts of complete values

A complete value and its text, kept together (`ValueText`), and so a member of an object
(`MemberText`).  Lists and objects of them are put together as texts, with brackets around them and
commas in between, and are complete values again.

* `ValueText.list`, `ValueText.object`: texts put together.
* `ValueText.read_eq`: what is read off such a text.
-/

namespace InterfaceSchema.Json

open InterfaceSchema.Text (Bytes)

/-- The text of one complete value, with blanks around it. -/
structure ValueText where
  text : Bytes
  outline : Outline
  padded : outline.Padded text

/-- The text of one member of an object: its key, a colon, its value, with blanks around them. -/
structure MemberText where
  text : Bytes
  member : Key × Outline
  laid : Outline.LaidMember member text

/-- The texts with commas between them. -/
def commas (xs : List Bytes) : Bytes := [octet ','].intercalate xs

/-! ### Lists and objects -/

theorem commas_singleton (x : Bytes) : commas [x] = x := List.intercalate_singleton

theorem commas_cons_cons (x y : Bytes) (xs : List Bytes) :
    commas (x :: y :: xs) = x ++ octet ',' :: commas (y :: xs) := by
  rw [commas, List.intercalate_cons_cons, List.append_assoc, List.singleton_append, commas]

/-- Each text but the last has a comma behind it. -/
theorem commas_concat (xs : List Bytes) (y : Bytes) :
    commas (xs ++ [y]) = xs.flatMap (· ++ [octet ',']) ++ y := by
  induction xs with
  | nil => exact commas_singleton y
  | cons x xs ih =>
      obtain ⟨z, zs, hz⟩ : ∃ z zs, xs ++ [y] = z :: zs := by cases xs <;> exact ⟨_, _, rfl⟩
      rw [List.cons_append, hz, commas_cons_cons, ← hz, ih, List.flatMap_cons, List.append_assoc,
        List.append_assoc, List.singleton_append]

/-- Texts of values with commas between them are the items of a list. -/
theorem Outline.laidItems_commas (x : ValueText) (xs : List ValueText) :
    LaidItems x.outline (xs.map (·.outline)) (commas (x.text :: xs.map (·.text))) := by
  induction xs generalizing x with
  | nil =>
      rw [List.map_nil, List.map_nil, commas_singleton]
      exact .last x.padded
  | cons y ys ih =>
      rw [List.map_cons, List.map_cons, commas_cons_cons]
      exact .more x.padded (ih y)

/-- Texts of members with commas between them are the members of an object. -/
theorem Outline.laidMembers_commas (m : MemberText) (ms : List MemberText) :
    LaidMembers m.member (ms.map (·.member)) (commas (m.text :: ms.map (·.text))) := by
  induction ms generalizing m with
  | nil =>
      rw [List.map_nil, List.map_nil, commas_singleton]
      exact .last m.laid
  | cons n ns ih =>
      rw [List.map_cons, List.map_cons, commas_cons_cons]
      exact .more m.laid (ih n)

theorem Outline.trees_eq (os : List Outline) : trees os = os.map tree := by
  induction os with
  | nil => rfl
  | cons o os ih => rw [trees, ih, List.map_cons]

/-- A text may do without blanks around it. -/
theorem Outline.Laid.padded {o : Outline} {x : Bytes} (h : o.Laid x) : o.Padded x := by
  have hpadded := Padded.mk Blanks.nil h Blanks.nil
  rwa [List.nil_append, List.append_nil] at hpadded

/-- A member without blanks around its key. -/
def MemberText.of (k : Key) (x : ValueText) : MemberText where
  text := Literal.quote :: (k.body ++ Literal.quote :: octet ':' :: x.text)
  member := (k, x.outline)
  laid := .mk Blanks.nil Blanks.nil x.padded

theorem MemberText.text_of (k : Key) (x : ValueText) : (of k x).text =
    Literal.quote :: (k.body ++ Literal.quote :: octet ':' :: x.text) := rfl

namespace ValueText

/-- A list of the values. -/
def list (xs : List ValueText) : ValueText where
  text := octet '[' :: (commas (xs.map (·.text)) ++ [octet ']'])
  outline := .list (xs.map (·.outline))
  padded := by
    cases xs with
    | nil => exact (Outline.Laid.emptyList Blanks.nil).padded
    | cons x xs => exact (Outline.Laid.list (Outline.laidItems_commas x xs)).padded

/-- An object of the members. -/
def object (ms : List MemberText) : ValueText where
  text := octet '\x7b' :: (commas (ms.map (·.text)) ++ [octet '\x7d'])
  outline := .object (ms.map (·.member))
  padded := by
    cases ms with
    | nil => exact (Outline.Laid.emptyObject Blanks.nil).padded
    | cons m ms => exact (Outline.Laid.object (Outline.laidMembers_commas m ms)).padded

theorem text_list (xs : List ValueText) :
    (list xs).text = octet '[' :: (commas (xs.map (·.text)) ++ [octet ']']) := rfl

theorem text_object (ms : List MemberText) :
    (object ms).text = octet '\x7b' :: (commas (ms.map (·.text)) ++ [octet '\x7d']) := rfl

/-- The text of an object whose last member is a list. -/
theorem text_object_list (before : List MemberText) (k : Key) (xs : List ValueText) {front : Bytes}
    (hfront : octet '\x7b' :: ((before.map (·.text)).flatMap (· ++ [octet ',']) ++
      Literal.quote :: (k.body ++ [Literal.quote, octet ':', octet '['])) = front) :
    (object (before ++ [.of k (list xs)])).text =
      front ++ (commas (xs.map (·.text)) ++ Text.bytes "]\x7d") := by
  have hback : Text.bytes "]\x7d" = [octet ']', octet '\x7d'] := by decide +kernel
  rw [← hfront, hback, text_object, List.map_append, List.map_singleton, commas_concat,
    MemberText.text_of, text_list]
  simp only [List.cons_append, List.append_assoc, List.nil_append]

/-- A list of texts comes to the list of what they come to. -/
theorem tree_list (xs : List ValueText) :
    (list xs).outline.tree = .list (xs.map (·.outline.tree)) := by
  rw [list, Outline.tree, Outline.trees_eq, List.map_map]
  rfl

/-- An object of texts comes to its keys with what the values come to. -/
theorem tree_object (ms : List MemberText) : (object ms).outline.tree =
    .object (ms.map fun m => (m.member.1.reading, m.member.2.tree)) := by
  rw [object, Outline.tree, Outline.memberTrees_eq, List.map_map]
  rfl

/-! ### Reading -/

/-- The value stands in its text. -/
theorem exists_after? (x : ValueText) : ∃ rest, x.outline.tree.after? x.text = some rest := by
  obtain ⟨text, o, hpadded⟩ := x
  cases hpadded with
  | mk hw hx hw' =>
      have hends := Outline.ends_of_stops hw'.stops o
      exact ⟨_, (Tree.after?_append hw _ _).trans (Outline.after?_of_laid hx hends)⟩

/-- What is read off the text is what the shape makes of the value. -/
theorem read_eq (x : ValueText) (s : Shape) :
    (s.read x.text).mapError Located.flaw = s.ofTree x.outline.tree := by
  obtain ⟨rest, h⟩ := x.exists_after?
  exact s.read_of_after? h

/-- A text with a value and nothing after it. -/
theorem exists_of_after? {v : Tree} {x : Bytes} (h : v.after? x = some []) :
    ∃ y : ValueText, y.text = x := by
  obtain ⟨w, o, z, hx, hw, hz, -⟩ := Tree.exists_laid h fun _ _ => stops_nil
  exact ⟨⟨x, o, hx ▸ .mk hw hz Blanks.nil⟩, rfl⟩

/-- A value that is read from a text is what the shape makes of its tree. -/
theorem ofTree_of_read {x : ValueText} {s : Shape} {a : s.Val} (h : s.read x.text = .ok a) :
    s.ofTree x.outline.tree = .ok a := by
  rw [← x.read_eq, h]
  rfl

/-- So is a fault, apart from its place. -/
theorem ofTree_of_read_error {x : ValueText} {s : Shape} {e : Located}
    (h : s.read x.text = .error e) : s.ofTree x.outline.tree = .error e.flaw := by
  rw [← x.read_eq, h]
  rfl

/-- A flaw of the tree is a fault of the text. -/
theorem read_eq_error {x : ValueText} {s : Shape} {flaw : Flaw}
    (h : s.ofTree x.outline.tree = .error flaw) : ∃ e, s.read x.text = .error e ∧ e.flaw = flaw := by
  rw [← x.read_eq] at h
  cases hread : s.read x.text with
  | ok a => rw [hread] at h; cases h
  | error e => rw [hread] at h; cases h; exact ⟨e, rfl, rfl⟩

end ValueText

end InterfaceSchema.Json
