import InterfaceSchema.Json.Shape
import InterfaceSchema.Proofs.Layout

/-!
# What shapes read, without texts

`Shape.ofTree` says what a shape reads a value to, or which flaw it finds in it, by the value
alone.  The reader of the shape comes to the same on every text of the value (`Shape.reads`), so
what is read does not hang on the layout, and faults hang on it only for their places.

* `Reader.reads_list`, `Reader.reads_record`, …: one lemma for each way to build readers.
* `Shape.read_of_after?`: what is read off the front of an input.
-/

namespace InterfaceSchema.Json

open InterfaceSchema.Text (Bytes)

/-! ### Values by their shapes -/

/-- A judgement on a whole value. -/
def judged {α : Type} (r : Except Cause α) : Except Flaw α := r.mapError (⟨[], ·⟩)

namespace Tree
variable {α β : Type}

/-- The token at which the value starts. -/
def token : Tree → Except Flaw Token
  | .scalar reading => reading
  | .list _         => .ok .list
  | .object _       => .ok .object

/-- What becomes of a value that its first token decides on. -/
def accept (f : Token → Except Cause α) (v : Tree) : Except Flaw α :=
  match v.token with
  | .error flaw => .error flaw
  | .ok t => judged (f t)

/-- A null, read as nothing, or a value. -/
def nullable (f : Tree → Except Flaw α) (v : Tree) : Except Flaw (Option α) :=
  match v with
  | .scalar (.ok .null) => .ok none
  | v => (f v).map some

/-- The items from number `i` on, each read by `item`. -/
def items (item : Tree → Except Flaw α) (i : Nat) : List Tree → Except Flaw (List α)
  | [] => .ok []
  | v :: vs =>
    match item v with
    | .error flaw => .error (flaw.within (.item i))
    | .ok a => (items item (i + 1) vs).map (a :: ·)

/-- A list of values of one kind. -/
def listOf (item : Tree → Except Flaw α) (v : Tree) : Except Flaw (List α) :=
  match v with
  | .list vs => items item 0 vs
  | v => v.accept fun t => .error (.wrongKind t .list)

/-- The value of the member `key`. -/
def member (key : String) (value : Tree → Except Flaw α) (v : Tree) : Except Flaw α :=
  (value v).mapError (·.within (.key key))

/-- The members of an object; `put` puts each to what those before it have made. -/
def members (put : String → Tree → α → Except Flaw α) (a : α) :
    List (Except Flaw String × Tree) → Except Flaw α
  | [] => .ok a
  | (.error flaw, _) :: _ => .error (flaw.within .unread)
  | (.ok key, v) :: ms =>
    match put key v a with
    | .error flaw => .error flaw
    | .ok a => members put a ms

/-- The members of an object, and the judgement on what has come together. -/
def named (put : String → Tree → α → Except Flaw α) (start : α) (finish : α → Except Cause β)
    (ms : List (Except Flaw String × Tree)) : Except Flaw β :=
  match members put start ms with
  | .error flaw => .error flaw
  | .ok a => judged (finish a)

/-- The items of a list that is to end. -/
def listEnd : List Tree → Except Flaw Unit
  | []     => .ok ()
  | _ :: _ => .error ⟨[], .trailingCharacters⟩

/-- The items from number `i` on of a list with one kind of value at each place. -/
def listItem (i : Nat) (item : Tree → Except Flaw α) (rest : List Tree → Except Flaw β)
    (short : Except Cause (α × β)) : List Tree → Except Flaw (α × β)
  | [] => judged short
  | v :: vs =>
    match item v with
    | .error flaw => .error (flaw.within (.item i))
    | .ok a => (rest vs).map (a, ·)

/-- A record in either of its two forms. -/
def record (title : String) (named : List (Except Flaw String × Tree) → Except Flaw α)
    (listed : List Tree → Except Flaw α) (v : Tree) : Except Flaw α :=
  match v with
  | .object ms => named ms
  | .list vs => listed vs
  | v => v.accept fun t => .error (.wrongKind t (.record title))

end Tree

mutual

/-- What the shape reads a value to. -/
def Shape.ofTree : (s : Shape) → Tree → Except Flaw s.Val
  | .text => Tree.accept fun
    | .text t => .ok t
    | t => .error (.wrongKind t .text)
  | .flag => Tree.accept fun
    | .boolean b => .ok b
    | t => .error (.wrongKind t .flag)
  | .integer => Tree.accept fun
    | .integer n =>
      if Int64.minValue.toInt ≤ n ∧ n ≤ Int64.maxValue.toInt then .ok (.ofInt n)
      else .error (.tooLarge n .integer)
    | t => .error (.wrongKind t .integer)
  | .nullable s => Tree.nullable s.ofTree
  | .list s => Tree.listOf s.ofTree
  | .record title ms =>
    Tree.record title (Tree.named ms.put ms.noSlots ms.ofSlots) (ms.ofItems title ms.size 0)

/-- Puts a member of an object into its slot; a member of any other key is passed over. -/
def Members.put : (ms : Members) → String → Tree → ms.Slots → Except Flaw ms.Slots
  | .empty, _, _, () => .ok ()
  | .cons k _ s ms, key, v, (slot, slots) =>
    if key = k then
      match slot with
      | some _ => .error ⟨[], .repeated k⟩
      | none => (Tree.member k s.ofTree v).map fun a => (some a, slots)
    else (ms.put key v slots).map fun slots => (slot, slots)

/-- What the members from number `i` on are as items of a list. -/
def Members.ofItems (title : String) (size i : Nat) :
    (ms : Members) → List Tree → Except Flaw ms.Val
  | .empty => Tree.listEnd
  | .cons k p s ms =>
    Tree.listItem i s.ofTree (ms.ofItems title size (i + 1))
      ((Members.cons k p s ms).ofShortList title size i)

end

namespace Members
variable {k key : String} {p : Presence} {s : Shape} {ms : Members} {v : Tree} {slots : ms.Slots}

/-- The first value of a member is kept. -/
theorem put_unmet : (cons k p s ms).put k v (none, slots) =
    (Tree.member k s.ofTree v).map fun a => (some a, slots) :=
  if_pos rfl

/-- A member that has come before is a flaw of the object. -/
theorem put_met {a : s.Val} :
    (cons k p s ms).put k v (some a, slots) = .error ⟨[], .repeated k⟩ :=
  if_pos rfl

/-- A key that is not that of the first member is left to the others. -/
theorem put_of_ne {slot : Option s.Val} (h : key ≠ k) :
    (cons k p s ms).put key v (slot, slots) = (ms.put key v slots).map fun slots => (slot, slots) :=
  if_neg h

end Members

/-! ### Outcomes -/

/-- The outcome is that of a value which comes to `r` and which `rest` follows. -/
inductive Outcome.Is {α : Type} (o : Outcome α) (r : Except Flaw α) (rest : Bytes) : Prop where
  | ok (a : α) (ho : o = .ok (a, rest)) (hr : r = .ok a)
  | error (f : Fault) (ho : o = .error f) (hr : r = .error f.flaw)

/-- The judgement on a value that has been read to its end. -/
theorem Outcome.judged_is {α : Type} (r : Except Cause α) (rest : Bytes) :
    Outcome.Is (match r with
      | .ok a => .ok (a, rest)
      | .error cause => .error (.here cause rest)) (judged r) rest := by
  cases r with
  | ok a => exact .ok a rfl rfl
  | error cause => exact .error _ rfl rfl

/-- Where a misfit stands in the text is nothing to its flaw. -/
theorem Token.misfit_flaw (t : Token) (cause : Cause) (r : Bytes) :
    (t.misfit cause r).flaw = ⟨[], cause⟩ := by
  cases t <;> rfl

/-! ### Tokens of values -/

namespace Tree
variable {s rest : Bytes}

/-- A list starts with its bracket, and its items follow. -/
theorem list_of_after? {vs : List Tree} (h : (Tree.list vs).after? s = some rest) :
    ∃ b s', skipBlanks s = b :: s' ∧ glyph b = '[' ∧ afterItems? true vs s' = some rest := by
  rw [after?] at h
  split at h
  · cases h
  · next b s' hs =>
      split at h
      · next hb => exact ⟨b, s', hs, hb, h⟩
      · cases h

theorem object_of_after? {ms : List (Except Flaw String × Tree)}
    (h : (Tree.object ms).after? s = some rest) :
    ∃ b s', skipBlanks s = b :: s' ∧ glyph b = '\x7b' ∧ afterMembers? true ms s' = some rest := by
  rw [after?] at h
  split at h
  · cases h
  · next b s' hs =>
      split at h
      · next hb => exact ⟨b, s', hs, hb, h⟩
      · cases h

/-- A scalar is what a reader makes of it, and can be passed over. -/
theorem scalar_of_after? {reading : Except Flaw Token}
    (h : (Tree.scalar reading).after? s = some rest) :
    (Token.read s).verdict = reading ∧
      ∃ b s', skipBlanks s = b :: s' ∧ Skipping.scalar b s' = .ok rest := by
  rw [after?] at h
  split at h
  · cases h
  · next b s' hs =>
      split at h
      · next hreading =>
          refine ⟨hreading, b, s', hs, ?_⟩
          cases hscalar : Skipping.scalar b s' with
          | error f => rw [hscalar] at h; cases h
          | ok r => rw [hscalar] at h; cases h; rfl
      · cases h

/-- Of a list the token is the bracket. -/
theorem read_of_list {vs : List Tree} (h : (Tree.list vs).after? s = some rest) :
    ∃ s', Token.read s = .ok (.list, s') ∧ afterItems? true vs s' = some rest := by
  obtain ⟨b, s', hs, hb, hvs⟩ := list_of_after? h
  exact ⟨s', by simp only [Token.read, hs, hb], hvs⟩

/-- Of an object the token is the brace. -/
theorem read_of_object {ms : List (Except Flaw String × Tree)}
    (h : (Tree.object ms).after? s = some rest) :
    ∃ s', Token.read s = .ok (.object, s') ∧ afterMembers? true ms s' = some rest := by
  obtain ⟨b, s', hs, hb, hms⟩ := object_of_after? h
  exact ⟨s', by simp only [Token.read, hs, hb], hms⟩

/-- A scalar is read, or is found faulty, up to its end. -/
theorem read_of_scalar {reading : Except Flaw Token}
    (h : (Tree.scalar reading).after? s = some rest) :
    (Token.read s).Is reading rest ∧ reading ≠ .ok .list ∧ reading ≠ .ok .object := by
  obtain ⟨rfl, b, s', hs, hscalar⟩ := scalar_of_after? h
  cases hread : Token.read s with
  | error f => exact ⟨.error f rfl rfl, by simp [Outcome.verdict], by simp [Outcome.verdict]⟩
  | ok p =>
      obtain ⟨t, r⟩ := p
      obtain ⟨b', s'', hs', hstarts⟩ := Token.starts_of_read hread
      rw [hs] at hs'
      cases hs'
      obtain ⟨hlist, hobject, -⟩ := Skipping.glyph_of_scalar hscalar
      cases hstarts with
      | list hb => exact absurd hb hlist
      | object hb => exact absurd hb hobject
      | scalar hr hl ho _ =>
          rw [hscalar] at hr
          cases hr
          exact ⟨.ok t rfl rfl, fun h => hl (Except.ok.inj h), fun h => ho (Except.ok.inj h)⟩

/-- Whether a scalar is null shows at its first character. -/
theorem null_of_after? {reading : Except Flaw Token}
    (h : (Tree.scalar reading).after? s = some rest) :
    ∃ b s', skipBlanks s = b :: s' ∧
      if glyph b = 'n' then reading = .ok .null ∧ readWord "ull".toList s' = .ok rest
      else reading ≠ .ok .null := by
  obtain ⟨rfl, b, s', hs, hscalar⟩ := scalar_of_after? h
  refine ⟨b, s', hs, ?_⟩
  split
  · next hb =>
      have hword : readWord "ull".toList s' = .ok rest := by
        rw [← hscalar, Skipping.scalar, hb]
        rfl
      exact ⟨by simp only [Token.read, hs, hb, Token.word, hword, Outcome.verdict], hword⟩
  · next hb =>
      cases hread : Token.read s with
      | error f => simp [Outcome.verdict]
      | ok p =>
          obtain ⟨t, r⟩ := p
          obtain ⟨b', s'', hs', hstarts⟩ := Token.starts_of_read hread
          rw [hs] at hs'
          cases hs'
          cases hstarts with
          | list | object => simp [Outcome.verdict]
          | scalar _ _ _ hnull => exact fun h => hb (hnull.1 (Except.ok.inj h))

end Tree

/-! ### Readers -/

namespace Reader
variable {α β : Type}

/-- On every text of a value the reader comes to what `f` makes of the value, and to its end. -/
def Reads (p : Reader α) (f : Tree → Except Flaw α) : Prop :=
  ∀ ⦃v : Tree⦄ ⦃s rest : Bytes⦄, v.after? s = some rest → (p.run s).Is (f v) rest

/-- What is left of a list is read to what `f` makes of the items there. -/
def ReadsItems (p : Reader α) (first : Bool) (f : List Tree → Except Flaw α) : Prop :=
  ∀ ⦃vs : List Tree⦄ ⦃s rest : Bytes⦄,
    Tree.afterItems? first vs s = some rest → (p.run s).Is (f vs) rest

/-- What follows a key is read to what `f` makes of the value there. -/
def ReadsMember (p : Reader α) (f : Tree → Except Flaw α) : Prop :=
  ∀ ⦃v : Tree⦄ ⦃s s' rest : Bytes⦄,
    readColon s = .ok s' → v.after? s' = some rest → (p.run s).Is (f v) rest

/-- What follows the opening bracket of an object is read to what `f` makes of its members. -/
def ReadsMembers (p : Reader α) (f : List (Except Flaw String × Tree) → Except Flaw α) : Prop :=
  ∀ ⦃ms : List (Except Flaw String × Tree)⦄ ⦃s rest : Bytes⦄,
    Tree.afterMembers? true ms s = some rest → (p.run s).Is (f ms) rest

variable {p : Reader α} {f : Tree → Except Flaw α} {s rest : Bytes}

/-- To change what is read is to change what the value comes to. -/
theorem map_is {r : Except Flaw α} (g : α → β) (h : (p.run s).Is r rest) :
    ((p.map g).run s).Is (r.map g) rest := by
  cases h with
  | ok a ho hr => exact .ok (g a) (by simp [Reader.map, ho]) (by simp [hr, Except.map])
  | error fault ho hr => exact .error fault (by simp [Reader.map, ho]) (by simp [hr, Except.map])

/-! #### Scalars -/

/-- The fault of a value of another kind than is wanted. -/
theorem misfit_is (t : Token) (cause : Cause) (r rest : Bytes) :
    Outcome.Is (.error (t.misfit cause r) : Outcome α) (judged (.error cause)) rest :=
  .error _ rfl (congrArg Except.error (t.misfit_flaw cause r).symm)

/-- A reader of tokens reads what its judgement on the token comes to, if it refuses brackets. -/
theorem reads_scalar {accept : Token → Except Cause α} (hlist : ∃ c, accept .list = .error c)
    (hobject : ∃ c, accept .object = .error c) : (scalar accept).Reads (Tree.accept accept) := by
  intro v s rest h
  cases v with
  | scalar reading =>
      obtain ⟨hread, -, -⟩ := Tree.read_of_scalar h
      cases hread with
      | error fault ho hr =>
          exact .error fault (by simp only [scalar, ho])
            (by simp only [Tree.accept, Tree.token, hr])
      | ok t ho hr =>
          simp only [scalar, ho, Tree.accept, Tree.token, hr]
          cases accept t with
          | ok a => exact .ok a rfl rfl
          | error c => exact misfit_is t c rest rest
  | list vs =>
      obtain ⟨c, hc⟩ := hlist
      obtain ⟨s', hread, -⟩ := Tree.read_of_list h
      simp only [scalar, hread, Tree.accept, Tree.token, hc]
      exact misfit_is .list c s' rest
  | object ms =>
      obtain ⟨c, hc⟩ := hobject
      obtain ⟨s', hread, -⟩ := Tree.read_of_object h
      simp only [scalar, hread, Tree.accept, Tree.token, hc]
      exact misfit_is .object c s' rest

/-- Only the letter n makes a null. -/
theorem nullable_of_ne {b : UInt8} (hs : skipBlanks s = b :: rest) (hb : glyph b ≠ 'n') :
    (nullable p).run s = (p.map some).run s := by
  simp only [nullable, hs, hb, if_false]

/-- A reader of values or null reads them. -/
theorem reads_nullable (hp : p.Reads f) : (nullable p).Reads (Tree.nullable f) := by
  intro v s rest h
  have hsome := map_is some (hp h)
  cases v with
  | scalar reading =>
      obtain ⟨b, s', hs, hnull⟩ := Tree.null_of_after? h
      split at hnull
      · next hb =>
          obtain ⟨rfl, hword⟩ := hnull
          exact .ok none (by simp only [nullable, hs, hb, if_true, hword]) rfl
      · next hb =>
          have hf : Tree.nullable f (.scalar reading) = (f (.scalar reading)).map some := by
            unfold Tree.nullable
            split
            · next heq => exact absurd (Tree.scalar.inj heq) hnull
            · rfl
          rw [nullable_of_ne hs hb, hf]
          exact hsome
  | list vs =>
      obtain ⟨b, s', hs, hb, -⟩ := Tree.list_of_after? h
      rw [nullable_of_ne hs (by rw [hb]; decide)]
      exact hsome
  | object ms =>
      obtain ⟨b, s', hs, hb, -⟩ := Tree.object_of_after? h
      rw [nullable_of_ne hs (by rw [hb]; decide)]
      exact hsome

/-! #### Lists -/

theorem itemsFrom_of_done {read : List α} {i : Nat} (h : nextItem (i = 0) s = .ok (.done rest)) :
    itemsFrom p read i s = .ok (read.reverse, rest) := by
  rw [itemsFrom]
  split <;> simp_all

/-- One item is read, and then the others. -/
theorem itemsFrom_of_more {read : List α} {i : Nat}
    (h : nextItem (i = 0) s = .ok (.more () rest)) :
    itemsFrom p read i s =
      match p.run rest with
      | .error f => .error (f.within (.item i))
      | .ok (a, r) => itemsFrom p (a :: read) (i + 1) r := by
  conv_lhs => rw [itemsFrom]
  split
  · simp_all
  · simp_all
  · next r hn =>
      rw [h] at hn
      cases hn
      split <;> simp_all

/-- Items come to what they come to one by one, after those already read. -/
theorem itemsFrom_is (hp : p.Reads f) {vs : List Tree} {read : List α} {i : Nat}
    (h : Tree.afterItems? (i = 0) vs s = some rest) :
    (itemsFrom p read i s).Is ((Tree.items f i vs).map (read.reverse ++ ·)) rest := by
  induction vs generalizing read i s with
  | nil =>
      rw [Tree.afterItems?] at h
      split at h
      · next hn =>
          cases h
          exact .ok read.reverse (itemsFrom_of_done hn) (by simp [Tree.items, Except.map])
      · cases h
  | cons v vs ih =>
      rw [Tree.afterItems?] at h
      split at h
      · next r hn =>
          split at h
          · next r' hv =>
              rw [itemsFrom_of_more hn, Tree.items]
              cases hp hv with
              | error fault ho hr =>
                  simp only [ho, hr]
                  exact .error _ rfl rfl
              | ok a ho hr =>
                  simp only [ho, hr]
                  have hlater : (itemsFrom p (a :: read) (i + 1) r').Is
                      ((Tree.items f (i + 1) vs).map ((a :: read).reverse ++ ·)) rest :=
                    ih (by simpa using h)
                  cases hvs : Tree.items f (i + 1) vs <;> simpa [hvs, Except.map] using hlater
          · cases h
      · cases h

/-- The items of a list are read from its bracket on. -/
theorem items_is (hp : p.Reads f) {vs : List Tree} (h : Tree.afterItems? true vs s = some rest) :
    (itemsFrom p [] 0 s).Is (Tree.items f 0 vs) rest := by
  have hitems : (itemsFrom p [] 0 s).Is ((Tree.items f 0 vs).map ([] ++ ·)) rest :=
    itemsFrom_is hp h
  cases hall : Tree.items f 0 vs <;> simpa [hall, Except.map] using hitems

/-- A reader of lists reads them, if that of the items reads these. -/
theorem reads_list (hp : p.Reads f) : (list p).Reads (Tree.listOf f) := by
  intro v s rest h
  cases v with
  | scalar reading =>
      obtain ⟨hread, hlist, -⟩ := Tree.read_of_scalar h
      cases hread with
      | error fault ho hr =>
          exact .error fault (by simp only [list, ho])
            (by simp only [Tree.listOf, Tree.accept, Tree.token, hr])
      | ok t ho hr =>
          have hne : t ≠ .list := fun ht => hlist (ht ▸ hr)
          simp only [list, ho, Tree.listOf, Tree.accept, Tree.token, hr]
          exact misfit_is t _ rest rest
  | list vs =>
      obtain ⟨s', hread, hvs⟩ := Tree.read_of_list h
      simpa only [list, hread, Tree.listOf] using items_is hp hvs
  | object ms =>
      obtain ⟨s', hread, -⟩ := Tree.read_of_object h
      simp only [list, hread, Tree.listOf, Tree.accept, Tree.token]
      exact misfit_is .object _ s' rest

/-! #### Objects -/

theorem membersFrom_of_done {take : String → α → Reader α} {first : Bool} {a : α}
    (h : nextKey first s = .ok (.done rest)) : membersFrom take first a s = .ok (a, rest) := by
  rw [membersFrom]
  split <;> simp_all

/-- One member is read, and then the others. -/
theorem membersFrom_of_more {take : String → α → Reader α} {first : Bool} {a : α} {key : String}
    (h : nextKey first s = .ok (.more key rest)) :
    membersFrom take first a s =
      match (take key a).run rest with
      | .error f => .error f
      | .ok (a, r) => membersFrom take false a r := by
  conv_lhs => rw [membersFrom]
  split
  · simp_all
  · simp_all
  · next k r hn =>
      rw [h] at hn
      cases hn
      split <;> simp_all

/-- What goes wrong between two members is put down to a key that is not read. -/
theorem membersFrom_of_error {take : String → α → Reader α} {first : Bool} {a : α} {fault : Fault}
    (h : nextKey first s = .error fault) :
    membersFrom take first a s = .error (fault.within .unread) := by
  rw [membersFrom]
  split <;> simp_all

/-- Where a key stands, its literal is read. -/
theorem nextKey_of_keyAt? {first : Bool} (h : Tree.keyAt? first s = some rest) :
    nextKey first s =
      match Literal.read rest with
      | .error f => .error f
      | .ok (k, r) => .ok (.more k r) := by
  have hquote : ∀ {b : UInt8}, glyph b = '"' → glyph b ≠ '\x7d' := fun hb => by rw [hb]; decide
  unfold Tree.keyAt? at h
  split at h
  · next hfirst =>
      obtain ⟨b, hs, hb⟩ := Tree.quoteAt?_eq_some_iff.1 h
      cases hread : Literal.read rest <;>
        simp only [nextKey, hs, if_neg (hquote hb), if_pos hfirst, if_pos hb, hread]
  · next hfirst =>
      split at h
      · cases h
      · next b r hs =>
          split at h
          · next hb =>
              obtain ⟨b', hs', hb'⟩ := Tree.quoteAt?_eq_some_iff.1 h
              have hclose : glyph b ≠ '\x7d' := by rw [hb]; decide
              cases hread : Literal.read rest <;>
                simp only [nextKey, hs, if_neg hclose, if_neg hfirst, if_pos hb, hs', if_pos hb',
                  hread]
          · cases h

/-- **The members of an object come to what `put` makes of them** one after the other. -/
theorem membersFrom_is {take : String → α → Reader α} {put : String → Tree → α → Except Flaw α}
    (htake : ∀ key a, (take key a).ReadsMember fun v => put key v a) {first : Bool}
    {ms : List (Except Flaw String × Tree)} {a : α}
    (h : Tree.afterMembers? first ms s = some rest) :
    (membersFrom take first a s).Is (Tree.members put a ms) rest := by
  induction ms generalizing first a s with
  | nil =>
      rw [Tree.afterMembers?] at h
      split at h
      · next hn =>
          cases h
          exact .ok a (membersFrom_of_done hn) rfl
      · cases h
  | cons m ms ih =>
      obtain ⟨key, v⟩ := m
      rw [Tree.afterMembers?] at h
      split at h
      · next r hn =>
          split at h
          · next r' hv =>
              obtain ⟨s', hs', hkey⟩ := Option.bind_eq_some_iff.1 hn
              obtain ⟨s'', hskip, rfl, hcolon⟩ := Tree.afterKey?_eq_some_iff.1 hkey
              have hnext := nextKey_of_keyAt? hs'
              cases hread : Literal.read s' with
              | error fault =>
                  rw [hread] at hnext
                  exact .error _ (membersFrom_of_error hnext) rfl
              | ok p =>
                  obtain ⟨key, r''⟩ := p
                  rw [hread] at hnext
                  -- the key ends where it would have ended if passed over
                  obtain rfl : s'' = r'' := by
                    rw [Literal.skip_of_read hread] at hskip
                    exact (Except.ok.inj hskip).symm
                  rw [membersFrom_of_more hnext, Outcome.verdict, Tree.members]
                  cases htake key a hcolon hv with
                  | error fault ho hr =>
                      simp only [ho, hr]
                      exact .error fault rfl rfl
                  | ok a' ho hr =>
                      simp only [ho, hr]
                      exact ih h
          · cases h
      · cases h

/-- Members are read in their order, each into what those before it have made, and then judged. -/
theorem reads_named {take : String → α → Reader α} {put : String → Tree → α → Except Flaw α}
    (htake : ∀ key a, (take key a).ReadsMember fun v => put key v a) {start : α}
    {finish : α → Except Cause β} :
    (named take start finish).ReadsMembers (Tree.named put start finish) := by
  intro ms s rest h
  have hmembers : (membersFrom take true start s).Is (Tree.members put start ms) rest :=
    membersFrom_is htake h
  cases hmembers with
  | error fault ho hr =>
      exact .error fault (by simp only [named, ho]) (by simp only [Tree.named, hr])
  | ok a ho hr =>
      simp only [named, Tree.named, ho, hr]
      exact Outcome.judged_is (finish a) rest

/-- What is passed over comes to nothing, whatever it is. -/
theorem readsMember_skip (key : String) : (member key skip).ReadsMember fun _ => .ok () := by
  intro v s s' rest hcolon h
  have hscan : Skipping.scan .value [] s' = .ok rest := by
    rw [Tree.scan_of_after? h, Skipping.scan]
  exact .ok () (by simp only [member, hcolon, skip, hscan]) rfl

/-- The value of a member is read, and its flaws are put down to the key. -/
theorem readsMember_member (key : String) (hp : p.Reads f) :
    (member key p).ReadsMember (Tree.member key f) := by
  intro v s s' rest hcolon h
  cases hp h with
  | error fault ho hr =>
      exact .error (fault.within (.key key)) (by simp only [member, hcolon, ho])
        (by simp only [Tree.member, hr]; rfl)
  | ok a ho hr =>
      exact .ok a (by simp only [member, hcolon, ho]) (by simp only [Tree.member, hr]; rfl)

/-! #### Records -/

/-- A list that is to end comes to a flaw if it goes on. -/
theorem reads_listEnd {first : Bool} : (listEnd ()).ReadsItems first Tree.listEnd := by
  intro vs s rest h
  cases vs with
  | nil =>
      rw [Tree.afterItems?] at h
      split at h
      · next hn =>
          cases h
          obtain ⟨b, hs, hb⟩ := nextItem_eq_done hn
          exact .ok () (by simp [listEnd, hs, hb]) rfl
      · cases h
  | cons v vs =>
      rw [Tree.afterItems?] at h
      split at h
      · next r hn =>
          split at h
          · next r' hv =>
              obtain ⟨b, s', hs, hb, hr⟩ := nextItem_eq_more hn
              split at hr
              · -- the first item stands there, which is not a comma
                subst hr
                obtain ⟨_, _, hs', -, hcomma, -⟩ := Tree.exists_skipBlanks_of_after? hv
                rw [skipBlanks_of_eq hs] at hs'
                cases hs'
                exact .error (.past .trailingCharacters (b :: s'))
                  (by simp [listEnd, hs, hb, hcomma]) rfl
              · obtain ⟨hcomma, hs', b', r'', rfl, hb'⟩ := hr
                exact .error (.past .trailingCharacters (b' :: r''))
                  (by simp [listEnd, hs, hcomma, hs', hb']) rfl
          · cases h
      · cases h

/-- One item of a record that stands as a list is read, and then the others. -/
theorem reads_listItem {i : Nat} {q : Reader β} {g : List Tree → Except Flaw β}
    {short : Except Cause (α × β)} (hp : p.Reads f) (hq : q.ReadsItems false g) :
    (listItem i p q short).ReadsItems (i = 0) (Tree.listItem i f g short) := by
  intro vs s rest h
  cases vs with
  | nil =>
      rw [Tree.afterItems?] at h
      split at h
      · next hn =>
          cases h
          simp only [listItem, hn, Tree.listItem]
          cases short with
          | ok v => exact .ok v rfl rfl
          | error cause => exact .error _ rfl rfl
      · cases h
  | cons v vs =>
      rw [Tree.afterItems?] at h
      split at h
      · next r hn =>
          split at h
          · next r' hv =>
              simp only [listItem, hn, Tree.listItem]
              cases hp hv with
              | error fault ho hr =>
                  simp only [ho, hr]
                  exact .error _ rfl rfl
              | ok a ho hr =>
                  simp only [ho, hr]
                  cases hq h with
                  | error fault ho' hr' =>
                      exact .error fault (by simp only [ho']) (by rw [hr']; rfl)
                  | ok b ho' hr' =>
                      exact .ok (a, b) (by simp only [ho']) (by rw [hr']; rfl)
          · cases h
      · cases h

/-- A record is read in either of its forms, as an object or as a list. -/
theorem reads_record {title : String} {named listed : Reader α}
    {f : List (Except Flaw String × Tree) → Except Flaw α} {g : List Tree → Except Flaw α}
    (hnamed : named.ReadsMembers f) (hlisted : listed.ReadsItems true g) :
    (record title named listed).Reads (Tree.record title f g) := by
  intro v s rest h
  cases v with
  | scalar reading =>
      obtain ⟨hread, hlist, hobject⟩ := Tree.read_of_scalar h
      cases hread with
      | error fault ho hr =>
          exact .error fault (by simp only [record, ho])
            (by simp only [Tree.record, Tree.accept, Tree.token, hr])
      | ok t ho hr =>
          have hl : t ≠ .list := fun ht => hlist (ht ▸ hr)
          have hobj : t ≠ .object := fun ht => hobject (ht ▸ hr)
          simp only [record, ho, Tree.record, Tree.accept, Tree.token, hr]
          exact misfit_is t _ rest rest
  | list vs =>
      obtain ⟨s', hread, hvs⟩ := Tree.read_of_list h
      simp only [record, hread]
      exact hlisted hvs
  | object ms =>
      obtain ⟨s', hread, hms⟩ := Tree.read_of_object h
      simp only [record, hread]
      exact hnamed hms

end Reader

/-! ### Shapes -/

mutual

/-- **What a shape reads off a text is what it makes of the value there**, whatever the layout. -/
theorem Shape.reads : ∀ s : Shape, s.reader.Reads s.ofTree
  | .text => Reader.reads_scalar ⟨_, rfl⟩ ⟨_, rfl⟩
  | .flag => Reader.reads_scalar ⟨_, rfl⟩ ⟨_, rfl⟩
  | .integer => Reader.reads_scalar ⟨_, rfl⟩ ⟨_, rfl⟩
  | .nullable s => Reader.reads_nullable s.reads
  | .list s => Reader.reads_list s.reads
  | .record title ms =>
      Reader.reads_record (Reader.reads_named ms.reads_take)
        (Members.reads_listed title ms.size 0 ms)

/-- A member is read into the slots of the record. -/
theorem Members.reads_take : ∀ (ms : Members) (key : String) (slots : ms.Slots),
    (ms.take key slots).ReadsMember fun v => ms.put key v slots
  | .empty, key, () => fun _ _ _ _ hcolon h =>
      Reader.map_is (fun _ => ()) (Reader.readsMember_skip key hcolon h)
  | .cons k _ s ms, key, (slot, slots) => by
      intro v b b' rest hcolon h
      simp only [Members.take, Members.put]
      split
      · cases slot with
        | some a => exact .error _ rfl rfl
        | none =>
            exact Reader.map_is (fun a => (some a, slots))
              (Reader.readsMember_member k s.reads hcolon h)
      · exact Reader.map_is (fun slots => (slot, slots)) (ms.reads_take key slots hcolon h)

/-- The members of a record are read from a list, from number `i` on. -/
theorem Members.reads_listed (title : String) (size : Nat) : ∀ (i : Nat) (ms : Members),
    (ms.listed title size i).ReadsItems (i = 0) (ms.ofItems title size i)
  | i, .empty => Reader.reads_listEnd
  | i, .cons k p s ms => by
      have hlater : (ms.listed title size (i + 1)).ReadsItems false
          (ms.ofItems title size (i + 1)) := by
        simpa using Members.reads_listed title size (i + 1) ms
      exact Reader.reads_listItem s.reads hlater

end

/-- A fault in a text apart from its place. -/
def Located.flaw (e : Located) : Flaw := ⟨e.path, e.cause⟩

/-- **What is read off the front of an input** is what the shape makes of the value there. -/
theorem Shape.read_of_after? (s : Shape) {v : Tree} {input rest : Bytes}
    (h : v.after? input = some rest) :
    (s.read input).mapError Located.flaw = s.ofTree v := by
  rw [Shape.read]
  cases s.reads h with
  | ok a ho hr => rw [ho, hr]; rfl
  | error f ho hr => rw [ho, hr]; rfl

end InterfaceSchema.Json
