import InterfaceSchema.Proofs.Passing
import InterfaceSchema.Proofs.Scalars
import InterfaceSchema.Proofs.Shapes

/-!
# Values and their grammar

A text starts with a value (`Tree.after?`) exactly where the grammar puts one there, and what the
value is hangs on its outline alone (`Outline.tree`).

* `Outline.after?_of_laid`: where an outline is laid out, its value stands.
* `Tree.exists_laid`: where a value stands, an outline of it is laid out.
* `Tree.exists_front`: what comes after a list or an object is nothing to it.
-/

namespace InterfaceSchema.Json

open InterfaceSchema.Text (Bytes)

/-- What a key is read to. -/
def Key.reading (k : Key) : Except Flaw String :=
  (Literal.read (k.body ++ [Literal.quote])).verdict

namespace Outline

mutual

/-- The value of an outline. -/
def tree : Outline → Tree
  | .scalar x  => .scalar (Token.read x.text).verdict
  | .list os   => .list (trees os)
  | .object ms => .object (memberTrees ms)

def trees : List Outline → List Tree
  | []      => []
  | o :: os => o.tree :: trees os

def memberTrees : List (Key × Outline) → List (Except Flaw String × Tree)
  | []           => []
  | (k, o) :: ms => (k.reading, o.tree) :: memberTrees ms

end

/-- Each member comes to its key and the tree of its value. -/
theorem memberTrees_eq (ms : List (Key × Outline)) :
    memberTrees ms = ms.map fun m => (m.1.reading, m.2.tree) := by
  induction ms with
  | nil => rfl
  | cons m ms ih => rw [memberTrees, ih, List.map_cons]

/-- What may follow the value: anything, but after a number not what goes on with it. -/
def Ends : Outline → Bytes → Prop
  | .scalar _, r => Stops r
  | _, _ => True

/-- What ends a number ends every value. -/
theorem ends_of_stops {r : Bytes} (h : Stops r) : ∀ o : Outline, o.Ends r
  | .scalar _ => h
  | .list _ | .object _ => trivial

end Outline

/-! ### Blanks and marks -/

section
variable {s r w x : Bytes} {b : UInt8}

/-- Blanks are passed over with those that follow. -/
theorem skipBlanks_append (hw : Blanks w) (s : Bytes) : skipBlanks (w ++ s) = skipBlanks s :=
  List.dropWhile_append_of_pos hw

theorem skipBlanks_append_cons (hw : Blanks w) (hb : isBlank b = false) :
    skipBlanks (w ++ b :: s) = b :: s := by
  rw [skipBlanks_append hw, skipBlanks_of_not_blank hb]

/-- Blanks in front are apart from what follows them. -/
theorem exists_blanks (s : Bytes) : ∃ w, s = w ++ skipBlanks s ∧ Blanks w :=
  ⟨s.takeWhile isBlank, List.takeWhile_append_dropWhile.symm, fun _ hb => List.mem_takeWhile_imp hb⟩

/-- No number goes on with a blank. -/
theorem Blanks.stops_append (hw : Blanks w) (hr : Stops r) : Stops (w ++ r) := by
  intro b hb
  cases w with
  | nil => exact hr b hb
  | cons c w =>
      obtain rfl : c = b := Option.some.inj hb
      have hblank := hw c List.mem_cons_self
      unfold isBlank at hblank
      split at hblank
      case h_5 => cases hblank
      all_goals
        next hc => rw [eq_octet hc]; decide

/-- Blanks end a number. -/
theorem Blanks.stops (hw : Blanks w) : Stops w := by
  have hstops := hw.stops_append stops_nil
  rwa [List.append_nil] at hstops

/-- Nor does a number go on with a mark after blanks. -/
theorem stops_append_mark (hw : Blanks w) (hb : b = octet ',' ∨ b = octet ']' ∨ b = octet '\x7d')
    (s : Bytes) : Stops (w ++ b :: s) := by
  refine hw.stops_append ?_
  intro b' hb'
  obtain rfl : b = b' := Option.some.inj hb'
  rcases hb with rfl | rfl | rfl <;> decide

/-- Blanks in front of a token are nothing to it. -/
theorem Token.read_congr {s' : Bytes} (h : skipBlanks s = skipBlanks s') :
    Token.read s = Token.read s' := by
  simp only [Token.read, h]

/-- Blanks before a value are nothing to it. -/
theorem Tree.after?_congr {s' : Bytes} (h : skipBlanks s = skipBlanks s') (v : Tree) :
    v.after? s = v.after? s' := by
  cases v with
  | scalar reading => simp only [after?, h, Token.read_congr h]
  | list vs => simp only [after?, h]
  | object ms => simp only [after?, h]

theorem Tree.after?_append (hw : Blanks w) (v : Tree) (s : Bytes) :
    v.after? (w ++ s) = v.after? s :=
  v.after?_congr (skipBlanks_append hw s)

end

/-! ### An outline that is laid out -/

namespace Outline
open InterfaceSchema.Json.Tree (after? afterItems? afterMembers? keyAt? quoteAt? afterKey?)

/-- A value starts with an octet that is no blank and no mark between values. -/
theorem Laid.exists_cons {o : Outline} {x : Bytes} (h : o.Laid x) :
    ∃ b y, x = b :: y ∧ isBlank b = false ∧ glyph b ≠ ']' := by
  cases h with
  | scalar x =>
      obtain ⟨b, s, hx, hb, hscalar⟩ := (takenWhole_of_isScalar x.isScalar).starts
      exact ⟨b, s, hx, hb, (Skipping.glyph_of_scalar (hscalar [] stops_nil)).2.2.2⟩
  | emptyList _ | list _ => exact ⟨_, _, rfl, rfl, by decide⟩
  | emptyObject _ | object _ => exact ⟨_, _, rfl, rfl, by decide⟩

/-- What stands before a part of a list or an object: blanks, and a comma after them unless the
part is the first. -/
def lead (first : Bool) (w : Bytes) : Bytes := if first then w else w ++ [octet ',']

/-- Where an item is laid out, it comes next. -/
theorem nextItem_of_laid {first : Bool} {u w x : Bytes} {o : Outline} (hu : Blanks u)
    (hw : Blanks w) (hx : o.Laid x) (r : Bytes) :
    Reader.nextItem first (lead first u ++ (w ++ (x ++ r))) = .ok (.more () (x ++ r)) := by
  obtain ⟨b, y, rfl, hb, hclose⟩ := hx.exists_cons
  have hitem : skipBlanks (w ++ (b :: y ++ r)) = b :: (y ++ r) := skipBlanks_append_cons hw hb
  cases first with
  | true =>
      refine Reader.nextItem_of_first ?_ hclose
      show skipBlanks (u ++ _) = _
      rw [skipBlanks_append hu, hitem]
      rfl
  | false =>
      have hcomma : skipBlanks (u ++ octet ',' :: (w ++ (b :: y ++ r))) =
          octet ',' :: (w ++ (b :: y ++ r)) := skipBlanks_append_cons hu rfl
      have hnext := Reader.nextItem_of_comma hcomma rfl hitem hclose
      simpa [lead] using hnext

/-- Where a key is laid out, it comes next. -/
theorem keyAt?_of_laid (first : Bool) {u w : Bytes} (hu : Blanks u) (hw : Blanks w) (s : Bytes) :
    keyAt? first (lead first u ++ (w ++ Literal.quote :: s)) = some s := by
  have hquote : ∀ {w : Bytes}, Blanks w → quoteAt? (w ++ Literal.quote :: s) = some s := by
    intro w hw
    exact Tree.quoteAt?_eq_some_iff.2 ⟨_, skipBlanks_append_cons hw rfl, rfl⟩
  cases first with
  | true =>
      show quoteAt? (u ++ (w ++ _)) = _
      rw [← List.append_assoc]
      exact hquote (hu.append hw)
  | false =>
      have hcomma : skipBlanks (u ++ octet ',' :: (w ++ Literal.quote :: s)) =
          octet ',' :: (w ++ Literal.quote :: s) := skipBlanks_append_cons hu rfl
      have hglyph : glyph (octet ',') = ',' := rfl
      simp [lead, keyAt?, hcomma, hglyph, hquote hw]

/-- A key is passed over with its colon, whatever blanks stand around this. -/
theorem afterKey?_of_laid {w : Bytes} (k : Key) (hw : Blanks w) (s : Bytes) :
    afterKey? k.reading (k.body ++ Literal.quote :: (w ++ octet ':' :: s)) = some s := by
  refine Tree.afterKey?_eq_some_iff.2 ⟨_, Literal.skip_append k.isBody _, ?_, ?_⟩
  · exact Literal.verdict_read k.isBody _ _
  · have hcolon : skipBlanks (w ++ octet ':' :: s) = octet ':' :: s :=
      skipBlanks_append_cons hw rfl
    rw [Reader.readColon, hcolon]
    rfl

/-- One item that is laid out, in front of those that follow. -/
theorem afterItems?_cons_of_laid {first : Bool} {u w x r r' : Bytes} {o : Outline} {vs : List Tree}
    (hu : Blanks u) (hw : Blanks w) (hx : o.Laid x) (hv : o.tree.after? (x ++ r) = some r)
    (hvs : afterItems? false vs r = some r') :
    afterItems? first (o.tree :: vs) (lead first u ++ (w ++ (x ++ r))) = some r' := by
  rw [Tree.afterItems?_cons (nextItem_of_laid hu hw hx r) hv, hvs]

/-- One member that is laid out, in front of those that follow. -/
theorem afterMembers?_cons_of_laid {first : Bool} {u w₁ w₂ w x r r' : Bytes} {k : Key} {o : Outline}
    {ms : List (Except Flaw String × Tree)} (hu : Blanks u) (hw₁ : Blanks w₁) (hw₂ : Blanks w₂)
    (hw : Blanks w) (hv : o.tree.after? (x ++ r) = some r)
    (hms : afterMembers? false ms r = some r') :
    afterMembers? first ((k.reading, o.tree) :: ms) (lead first u ++
      (w₁ ++ Literal.quote :: (k.body ++ Literal.quote :: (w₂ ++ octet ':' :: (w ++ (x ++ r)))))) =
        some r' := by
  have hkey := keyAt?_of_laid first hu hw₁
    (k.body ++ Literal.quote :: (w₂ ++ octet ':' :: (w ++ (x ++ r))))
  simp only [afterMembers?, hkey, Option.bind_some, afterKey?_of_laid k hw₂,
    Tree.after?_append hw, hv, hms]

mutual

/-- **Where an outline is laid out, its value stands.** -/
theorem after?_of_laid : ∀ {o : Outline} {x r : Bytes}, o.Laid x → o.Ends r →
    o.tree.after? (x ++ r) = some r
  | .scalar _, _, r, .scalar x, hr => by
      have htaken := takenWhole_of_isScalar x.isScalar
      have hreads := htaken.reads r [] hr stops_nil
      rw [List.append_nil] at hreads
      obtain ⟨b, s, hx, hb, hscalar⟩ := htaken.starts
      have hs : skipBlanks (x.text ++ r) = b :: (s ++ r) := by
        rw [hx]
        exact skipBlanks_of_not_blank hb
      rw [tree, ← hreads]
      exact Tree.after?_scalar hs (hscalar r hr)
  | .list [], _, r, @Laid.emptyList w hw, _ => by
      have hclose : Reader.nextItem true (w ++ octet ']' :: r) = .ok (.done r) :=
        Reader.nextItem_of_close (skipBlanks_append_cons hw rfl) rfl
      rw [tree, List.cons_append, List.append_assoc, List.singleton_append,
        Tree.after?_list (skipBlanks_of_not_blank rfl) rfl]
      exact Tree.afterItems?_nil hclose
  | .list (o :: os), _, r, .list h, _ => by
      rw [tree, List.cons_append, List.append_assoc, List.singleton_append,
        Tree.after?_list (skipBlanks_of_not_blank rfl) rfl]
      exact afterItems?_of_laid true (u := []) h Blanks.nil
  | .object [], _, r, @Laid.emptyObject w hw, _ => by
      have hclose : Reader.nextKey true (w ++ octet '\x7d' :: r) = .ok (.done r) :=
        Reader.nextKey_of_close (skipBlanks_append_cons hw rfl) rfl
      rw [tree, List.cons_append, List.append_assoc, List.singleton_append,
        Tree.after?_object (skipBlanks_of_not_blank rfl) rfl]
      exact Tree.afterMembers?_nil hclose
  | .object (m :: ms), _, r, .object h, _ => by
      rw [tree, List.cons_append, List.append_assoc, List.singleton_append,
        Tree.after?_object (skipBlanks_of_not_blank rfl) rfl]
      exact afterMembers?_of_laid true (u := []) h Blanks.nil

theorem afterItems?_of_laid : ∀ (first : Bool) {o : Outline} {os : List Outline} {u x r : Bytes},
    LaidItems o os x → Blanks u →
      afterItems? first (trees (o :: os)) (lead first u ++ (x ++ octet ']' :: r)) = some r
  | first, o, [], u, _, r, .last (@Padded.mk _ w x w' hw hx hw'), hu => by
      have hstops : Stops (w' ++ octet ']' :: r) := stops_append_mark hw' (.inr (.inl rfl)) r
      have hclose : Reader.nextItem false (w' ++ octet ']' :: r) = .ok (.done r) :=
        Reader.nextItem_of_close (skipBlanks_append_cons hw' rfl) rfl
      rw [List.append_assoc, List.append_assoc]
      exact afterItems?_cons_of_laid hu hw hx (after?_of_laid hx (ends_of_stops hstops o))
        (Tree.afterItems?_nil hclose)
  | first, o, o' :: os, u, _, r, .more (y := y) (@Padded.mk _ w x w' hw hx hw') h, hu => by
      have hstops : Stops (w' ++ octet ',' :: (y ++ octet ']' :: r)) :=
        stops_append_mark hw' (.inl rfl) _
      have hlater := afterItems?_of_laid false (r := r) h hw'
      simp only [lead, List.append_assoc, List.cons_append, List.nil_append,
        Bool.false_eq_true, if_false] at hlater
      simp only [List.append_assoc, List.cons_append]
      exact afterItems?_cons_of_laid hu hw hx (after?_of_laid hx (ends_of_stops hstops o)) hlater

theorem afterMembers?_of_laid : ∀ (first : Bool) {m : Key × Outline} {ms : List (Key × Outline)}
    {u x r : Bytes}, LaidMembers m ms x → Blanks u →
      afterMembers? first (memberTrees (m :: ms)) (lead first u ++ (x ++ octet '\x7d' :: r)) =
        some r
  | first, (k, o), [], u, _, r, .last (@LaidMember.mk _ _ w₁ w₂ _ hw₁ hw₂
      (@Padded.mk _ w x w' hw hx hw')), hu => by
      have hstops : Stops (w' ++ octet '\x7d' :: r) := stops_append_mark hw' (.inr (.inr rfl)) r
      have hclose : Reader.nextKey false (w' ++ octet '\x7d' :: r) = .ok (.done r) :=
        Reader.nextKey_of_close (skipBlanks_append_cons hw' rfl) rfl
      simp only [List.append_assoc, List.cons_append]
      exact afterMembers?_cons_of_laid hu hw₁ hw₂ hw (after?_of_laid hx (ends_of_stops hstops o))
        (Tree.afterMembers?_nil hclose)
  | first, (k, o), m' :: ms, u, _, r, .more (y := y) (@LaidMember.mk _ _ w₁ w₂ _ hw₁ hw₂
      (@Padded.mk _ w x w' hw hx hw')) h, hu => by
      have hstops : Stops (w' ++ octet ',' :: (y ++ octet '\x7d' :: r)) :=
        stops_append_mark hw' (.inl rfl) _
      have hlater := afterMembers?_of_laid false (r := r) h hw'
      simp only [lead, List.append_assoc, List.cons_append, List.nil_append,
        Bool.false_eq_true, if_false] at hlater
      simp only [List.append_assoc, List.cons_append]
      exact afterMembers?_cons_of_laid hu hw₁ hw₂ hw (after?_of_laid hx (ends_of_stops hstops o))
        hlater

end

/-- Items up to the closing bracket, with what stands before the first of them. -/
def ItemsFrom (first : Bool) : List Outline → Bytes → Prop
  | [], x => Blanks x
  | o :: os, x => ∃ u y, x = lead first u ++ y ∧ Blanks u ∧ LaidItems o os y

/-- Members up to the closing bracket, with what stands before the first of them. -/
def MembersFrom (first : Bool) : List (Key × Outline) → Bytes → Prop
  | [], x => Blanks x
  | m :: ms, x => ∃ u y, x = lead first u ++ y ∧ Blanks u ∧ LaidMembers m ms y

/-- What follows an item, a comma or the bracket, ends it. -/
theorem stops_of_itemsFrom {os : List Outline} {x : Bytes} (h : ItemsFrom false os x) (r : Bytes) :
    Stops (x ++ octet ']' :: r) := by
  cases os with
  | nil => exact stops_append_mark h (.inr (.inl rfl)) r
  | cons o os =>
      obtain ⟨u, y, rfl, hu, -⟩ := h
      simp only [lead, Bool.false_eq_true, if_false, List.append_assoc]
      exact stops_append_mark hu (.inl rfl) _

/-- So does what follows a member. -/
theorem stops_of_membersFrom {ms : List (Key × Outline)} {x : Bytes} (h : MembersFrom false ms x)
    (r : Bytes) : Stops (x ++ octet '\x7d' :: r) := by
  cases ms with
  | nil => exact stops_append_mark h (.inr (.inr rfl)) r
  | cons m ms =>
      obtain ⟨u, y, rfl, hu, -⟩ := h
      simp only [lead, Bool.false_eq_true, if_false, List.append_assoc]
      exact stops_append_mark hu (.inl rfl) _

/-- Blanks may be added in front of the first item, and of the first member. -/
theorem LaidItems.append {o : Outline} {os : List Outline} {u x : Bytes} (hu : Blanks u)
    (h : LaidItems o os x) : LaidItems o os (u ++ x) := by
  cases h with
  | last h =>
      cases h with
      | mk hw hx hw' => exact .last (List.append_assoc .. ▸ .mk (hu.append hw) hx hw')
  | more h hs =>
      cases h with
      | mk hw hx hw' =>
          rw [← List.append_assoc, ← List.append_assoc]
          exact .more (.mk (hu.append hw) hx hw') hs

/-- A member may have more blanks in front of it. -/
theorem LaidMember.append {m : Key × Outline} {u x : Bytes} (hu : Blanks u)
    (h : LaidMember m x) : LaidMember m (u ++ x) := by
  cases h with
  | mk hw hw' h => exact List.append_assoc .. ▸ .mk (hu.append hw) hw' h

/-- So may the first of several. -/
theorem LaidMembers.append {m : Key × Outline} {ms : List (Key × Outline)} {u x : Bytes}
    (hu : Blanks u) (h : LaidMembers m ms x) : LaidMembers m ms (u ++ x) := by
  cases h with
  | last h => exact .last (h.append hu)
  | more h hs => exact List.append_assoc .. ▸ .more (h.append hu) hs

/-- An item with blanks around it, in front of those that follow. -/
theorem Padded.itemsFrom {first : Bool} {u x y : Bytes} {o : Outline} {os : List Outline}
    {w : Bytes} (hu : Blanks u) (hw : Blanks w) (hx : o.Laid x) (hy : ItemsFrom false os y) :
    ItemsFrom first (o :: os) (lead first u ++ (w ++ (x ++ y))) := by
  cases os with
  | nil => exact ⟨u, _, rfl, hu, .last (.mk hw hx hy)⟩
  | cons o' os =>
      obtain ⟨u', y, rfl, hu', hos⟩ := hy
      refine ⟨u, (w ++ (x ++ u')) ++ octet ',' :: y, ?_, hu, .more (.mk hw hx hu') hos⟩
      simp [lead]

/-- A member with blanks in all its places, in front of those that follow. -/
theorem Padded.membersFrom {first : Bool} {u w₁ w₂ w x y : Bytes} {k : Key} {o : Outline}
    {ms : List (Key × Outline)} (hu : Blanks u) (hw₁ : Blanks w₁) (hw₂ : Blanks w₂)
    (hw : Blanks w) (hx : o.Laid x) (hy : MembersFrom false ms y) :
    MembersFrom first ((k, o) :: ms) (lead first u ++ (w₁ ++ Literal.quote ::
      (k.body ++ Literal.quote :: (w₂ ++ octet ':' :: (w ++ (x ++ y)))))) := by
  cases ms with
  | nil => exact ⟨u, _, rfl, hu, .last (.mk hw₁ hw₂ (.mk hw hx hy))⟩
  | cons m' ms =>
      obtain ⟨u', y, rfl, hu', hms⟩ := hy
      refine ⟨u, (w₁ ++ Literal.quote :: (k.body ++ Literal.quote ::
        (w₂ ++ octet ':' :: (w ++ (x ++ u'))))) ++ octet ',' :: y, ?_, hu,
        .more (.mk hw₁ hw₂ (.mk hw hx hu')) hms⟩
      simp [lead]

end Outline

/-! ### A value that stands -/

namespace Reader
variable {first : Bool} {s r : Bytes}

/-- A turn among the members of an object is its end, or a key that is read where one stands. -/
theorem nextKey_eq_ok {turn : Turn String} (h : nextKey first s = .ok turn) :
    (∃ b r, skipBlanks s = b :: r ∧ glyph b = '\x7d' ∧ turn = .done r) ∨
      ∃ q key r, Tree.keyAt? first s = some q ∧ Literal.read q = .ok (key, r) ∧
        turn = .more key r := by
  simp only [nextKey] at h
  split at h
  · cases h
  · next b s' hs =>
      split at h
      · next hb =>
          cases h
          exact .inl ⟨b, s', hs, hb, rfl⟩
      · split at h
        · next hfirst =>
            split at h
            · next hb =>
                split at h
                · cases h
                · next key r hread =>
                    cases h
                    refine .inr ⟨s', key, r, ?_, hread, rfl⟩
                    simp only [Tree.keyAt?, hfirst, if_true]
                    exact Tree.quoteAt?_eq_some_iff.2 ⟨b, hs, hb⟩
            · cases h
        · next hfirst =>
            split at h
            · next hcomma =>
                split at h
                · cases h
                · next b' s'' hs' =>
                    split at h
                    · next hb =>
                        split at h
                        · cases h
                        · next key r hread =>
                            cases h
                            refine .inr ⟨s'', key, r, ?_, hread, rfl⟩
                            simp only [Tree.keyAt?, hfirst, hs, if_pos hcomma]
                            exact Tree.quoteAt?_eq_some_iff.2 ⟨b', hs', hb⟩
                    · split at h <;> cases h
            · cases h

/-- An object is done at its closing bracket. -/
theorem nextKey_eq_done (h : nextKey first s = .ok (.done r)) :
    ∃ b, skipBlanks s = b :: r ∧ glyph b = '\x7d' := by
  rcases nextKey_eq_ok h with ⟨b, r, hs, hb, hturn⟩ | ⟨_, _, _, -, -, hturn⟩
  · cases hturn
    exact ⟨b, hs, hb⟩
  · cases hturn

/-- A key that is read stands where a key may. -/
theorem exists_keyAt?_of_nextKey {key : String} (h : nextKey first s = .ok (.more key r)) :
    ∃ q, Tree.keyAt? first s = some q ∧ Literal.read q = .ok (key, r) := by
  rcases nextKey_eq_ok h with ⟨_, _, -, -, hturn⟩ | ⟨q, _, _, hkey, hread, hturn⟩
  · cases hturn
  · cases hturn
    exact ⟨q, hkey, hread⟩

end Reader

namespace Tree
open Outline (lead trees memberTrees ItemsFrom MembersFrom)
variable {first : Bool} {s r : Bytes} {b : UInt8}

/-- What stands before an octet that comes next are blanks. -/
theorem eq_of_skipBlanks {c : Char} (hs : skipBlanks s = b :: r) (hb : glyph b = c) :
    ∃ w, s = w ++ octet c :: r ∧ Blanks w := by
  obtain ⟨w, hsplit, hw⟩ := exists_blanks s
  exact ⟨w, by rw [hsplit, hs, eq_octet hb], hw⟩

/-- Before an item stand blanks, and a comma unless it is the first. -/
theorem exists_lead_of_nextItem (h : Reader.nextItem first s = .ok (.more () r)) :
    ∃ u w, s = lead first u ++ (w ++ r) ∧ Blanks u ∧ Blanks w := by
  obtain ⟨b, s', hs, -, hr⟩ := Reader.nextItem_eq_more h
  cases first with
  | true =>
      obtain rfl : r = b :: s' := hr
      obtain ⟨w, hsplit, hw⟩ := exists_blanks s
      exact ⟨[], w, by rw [hsplit, hs]; rfl, Blanks.nil, hw⟩
  | false =>
      obtain ⟨hcomma, hr, -⟩ : glyph b = ',' ∧ skipBlanks s' = r ∧ _ := hr
      obtain ⟨u, hu, hblanks⟩ := eq_of_skipBlanks hs hcomma
      obtain ⟨w, hsplit, hw⟩ := exists_blanks s'
      refine ⟨u, w, ?_, hblanks, hw⟩
      rw [hu, hsplit, hr]
      simp [lead]

theorem exists_of_quoteAt? (h : quoteAt? s = some r) :
    ∃ w, s = w ++ Literal.quote :: r ∧ Blanks w := by
  obtain ⟨b, hs, hb⟩ := quoteAt?_eq_some_iff.1 h
  exact eq_of_skipBlanks hs hb

/-- Before a key stand blanks, and a comma unless it is the first. -/
theorem exists_lead_of_keyAt? (h : keyAt? first s = some r) :
    ∃ u w, s = lead first u ++ (w ++ Literal.quote :: r) ∧ Blanks u ∧ Blanks w := by
  cases first with
  | true =>
      obtain ⟨w, rfl, hw⟩ := exists_of_quoteAt? (show quoteAt? s = some r from h)
      exact ⟨[], w, rfl, Blanks.nil, hw⟩
  | false =>
      simp only [keyAt?, Bool.false_eq_true, if_false] at h
      split at h
      · cases h
      · next b s' hs =>
          split at h
          · next hb =>
              obtain ⟨u, rfl, hu⟩ := eq_of_skipBlanks hs hb
              obtain ⟨w, rfl, hw⟩ := exists_of_quoteAt? h
              exact ⟨u, w, by simp [lead], hu, hw⟩
          · cases h

/-- What is passed over as a key is a key, blanks, and a colon. -/
theorem exists_of_afterKey? {key : Except Flaw String} (h : afterKey? key s = some r) :
    ∃ (k : Key) (w : Bytes), s = k.body ++ Literal.quote :: (w ++ octet ':' :: r) ∧ Blanks w ∧
      k.reading = key := by
  obtain ⟨s', hskip, rfl, hcolon⟩ := afterKey?_eq_some_iff.1 h
  obtain ⟨x, rfl, hx⟩ := Literal.exists_of_skip hskip
  unfold Reader.readColon at hcolon
  split at hcolon
  · cases hcolon
  · next b s'' hs =>
      split at hcolon
      · next hb =>
          cases hcolon
          obtain ⟨w, rfl, hw⟩ := eq_of_skipBlanks hs hb
          exact ⟨⟨x, hx⟩, w, rfl, hw, Literal.verdict_read hx _ _⟩
      · cases hcolon

mutual

/-- **Where a value stands, an outline of it is laid out.** -/
theorem exists_laid : ∀ {v : Tree} {s r : Bytes}, v.after? s = some r →
    (∀ reading, v = .scalar reading → Stops r) →
      ∃ w o x, s = w ++ (x ++ r) ∧ Blanks w ∧ Outline.Laid o x ∧ o.tree = v
  | .scalar reading, s, r, h, hr => by
      obtain ⟨hreading, b, s', hs, hscalar⟩ := scalar_of_after? h
      obtain ⟨x, hx, hscalar⟩ := exists_of_skipScalar hscalar
      obtain ⟨w, hsplit, hw⟩ := exists_blanks s
      rw [hs, hx] at hsplit
      refine ⟨w, .scalar ⟨x, hscalar⟩, x, hsplit, hw, .scalar _, ?_⟩
      have hreads := (takenWhole_of_isScalar hscalar).reads r [] (hr _ rfl) stops_nil
      have hfront : Token.read s = Token.read (x ++ r) :=
        Token.read_congr (by rw [hsplit, skipBlanks_append hw])
      rw [hfront, hreads, List.append_nil] at hreading
      rw [← hreading]
      rfl
  | .list vs, s, r, h, _ => by
      obtain ⟨b, s', hs, hb, hvs⟩ := list_of_after? h
      obtain ⟨w, rfl, hw⟩ := eq_of_skipBlanks hs hb
      obtain ⟨os, x, rfl, hx, rfl⟩ := exists_laidItems hvs
      cases os with
      | nil => exact ⟨w, .list [], _, by simp, hw, .emptyList hx, rfl⟩
      | cons o os =>
          obtain ⟨u, y, rfl, hu, hos⟩ := hx
          exact ⟨w, .list (o :: os), _, by simp [lead], hw, .list (hos.append hu), rfl⟩
  | .object ms, s, r, h, _ => by
      obtain ⟨b, s', hs, hb, hms⟩ := object_of_after? h
      obtain ⟨w, rfl, hw⟩ := eq_of_skipBlanks hs hb
      obtain ⟨os, x, rfl, hx, rfl⟩ := exists_laidMembers hms
      cases os with
      | nil => exact ⟨w, .object [], _, by simp, hw, .emptyObject hx, rfl⟩
      | cons m ms =>
          obtain ⟨u, y, rfl, hu, hms⟩ := hx
          exact ⟨w, .object (m :: ms), _, by simp [lead], hw, .object (hms.append hu), rfl⟩

/-- What is passed over as items is laid out as items. -/
theorem exists_laidItems : ∀ {first : Bool} {vs : List Tree} {s r : Bytes},
    afterItems? first vs s = some r →
      ∃ os x, s = x ++ octet ']' :: r ∧ ItemsFrom first os x ∧ trees os = vs
  | first, [], s, r, h => by
      rw [afterItems?] at h
      split at h
      · next hn =>
          cases h
          obtain ⟨b, hs, hb⟩ := Reader.nextItem_eq_done hn
          obtain ⟨w, rfl, hw⟩ := eq_of_skipBlanks hs hb
          exact ⟨[], w, rfl, hw, rfl⟩
      · cases h
  | first, v :: vs, s, r, h => by
      rw [afterItems?] at h
      split at h
      · next s' hn =>
          split at h
          · next s'' hv =>
              obtain ⟨u, w, rfl, hu, hw⟩ := exists_lead_of_nextItem hn
              obtain ⟨os, y, rfl, hy, rfl⟩ := exists_laidItems h
              obtain ⟨w', o, x, rfl, hw', hx, rfl⟩ :=
                exists_laid hv fun _ _ => Outline.stops_of_itemsFrom hy r
              exact ⟨o :: os, _, by simp, Outline.Padded.itemsFrom hu (hw.append hw') hx hy, rfl⟩
          · cases h
      · cases h

/-- What is passed over as members is laid out as members. -/
theorem exists_laidMembers : ∀ {first : Bool} {ms : List (Except Flaw String × Tree)}
    {s r : Bytes}, afterMembers? first ms s = some r →
      ∃ os x, s = x ++ octet '\x7d' :: r ∧ MembersFrom first os x ∧ memberTrees os = ms
  | first, [], s, r, h => by
      rw [afterMembers?] at h
      split at h
      · next hn =>
          cases h
          obtain ⟨b, hs, hb⟩ := Reader.nextKey_eq_done hn
          obtain ⟨w, rfl, hw⟩ := eq_of_skipBlanks hs hb
          exact ⟨[], w, rfl, hw, rfl⟩
      · cases h
  | first, (key, v) :: ms, s, r, h => by
      rw [afterMembers?] at h
      split at h
      · next s' hn =>
          split at h
          · next s'' hv =>
              obtain ⟨q, hq, hkey⟩ := Option.bind_eq_some_iff.1 hn
              obtain ⟨u, w₁, rfl, hu, hw₁⟩ := exists_lead_of_keyAt? hq
              obtain ⟨k, w₂, rfl, hw₂, rfl⟩ := exists_of_afterKey? hkey
              obtain ⟨os, y, rfl, hy, rfl⟩ := exists_laidMembers h
              obtain ⟨w, o, x, rfl, hw, hx, rfl⟩ :=
                exists_laid hv fun _ _ => Outline.stops_of_membersFrom hy r
              exact ⟨(k, o) :: os, _, by simp,
                Outline.Padded.membersFrom hu hw₁ hw₂ hw hx hy, rfl⟩
          · cases h
      · cases h

end

/-- What follows a value that was passed over is settled. -/
theorem after?_unique {v v' : Tree} {r' : Bytes} (h : v.after? s = some r)
    (h' : v'.after? s = some r') : r = r' := by
  have hscan : Skipping.scan .value [] s = Skipping.scan .passed [] r := Tree.scan_of_after? h
  rw [Tree.scan_of_after? h', Skipping.scan, Skipping.scan] at hscan
  exact (Except.ok.inj hscan).symm

/-- **What comes after a list or an object is nothing to it**, and it is laid out up to there. -/
theorem exists_front {v : Tree} (h : v.after? s = some r) (hv : ∀ reading, v ≠ .scalar reading) :
    ∃ (w x : Bytes) (o : Outline), s = w ++ (x ++ r) ∧ Blanks w ∧ o.Laid x ∧
      ∀ r', v.after? (w ++ (x ++ r')) = some r' := by
  obtain ⟨w, o, x, hs, hw, hx, rfl⟩ := exists_laid h fun reading hreading =>
    absurd hreading (hv reading)
  have hends : ∀ r', o.Ends r' := by
    intro r'
    cases o with
    | scalar x => exact absurd rfl (hv _)
    | list | object => trivial
  refine ⟨w, x, o, hs, hw, hx, ?_⟩
  intro r'
  rw [Tree.after?_append hw]
  exact Outline.after?_of_laid hx (hends r')

end Tree

end InterfaceSchema.Json
