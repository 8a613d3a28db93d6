import Mathlib.Order.MinMax
import InterfaceSchema.Json.Parser
import InterfaceSchema.Proofs.Entries
import InterfaceSchema.Proofs.Spellings

/-!
# What is printed is read back

Reading a printed value comes to the value itself, if its integers have 64 bits, no object of it
has a key twice (`Json.Faithful`) and its brackets nest no deeper than the reader goes
(`Json.levels`).  The reader is compared with what it makes of values without their texts
(`Tree.value`).

* `Reader.reads_value`: what the reader makes of any value.
* `Tree.value_outline`, `Tree.value_outline_tooDeep`: what it makes of a value that is printed.
* `parse_render`, `parse_render_tooDeep`: a printed file is read back to its value, or refused for
  its depth.
-/

namespace InterfaceSchema.Json

open InterfaceSchema.Text (Bytes)

/-! ### Any value -/

namespace Tree

/-- The members so far with one more, whose value comes to what `part` makes of it. -/
def entry (part : Tree → Except Flaw Json) (key : String) (v : Tree) (ms : Entries Json) :
    Except Flaw (Entries Json) :=
  (member key part v).map fun v => Entries.insert key v ms

/-- What a token alone comes to. -/
def ofToken : Token → Except Cause Json
  | .null      => .ok .null
  | .boolean b => .ok (.bool b)
  | .integer n => .ok (.int n)
  | .text t    => .ok (.str t)
  | .decimal d => .error (.wrongKind (.decimal d) .integer)
  | .list      => .ok (.arr [])
  | .object    => .ok (.obj [])

/-- What a value comes to whose parts come to what `part` makes of them.  Without `part` its bracket
is refused. -/
def valueOf (part : Option (Tree → Except Flaw Json)) : Tree → Except Flaw Json
  | .scalar reading => (Tree.scalar reading).accept ofToken
  | .list vs =>
    match part with
    | none => .error ⟨[], .tooDeep⟩
    | some part => (items part 0 vs).map .arr
  | .object ms =>
    match part with
    | none => .error ⟨[], .tooDeep⟩
    | some part => (members (entry part) [] ms).map .obj

/-- What a value comes to of which no more than `levels` brackets may be open at once. -/
def value : (levels : Nat) → Tree → Except Flaw Json
  | 0          => valueOf none
  | levels + 1 => valueOf (some (value levels))

end Tree

namespace Reader
variable {part : Option (Reader Json)} {f : Option (Tree → Except Flaw Json)}

/-- A value is read to what its parts are read to; where no parts are taken, its bracket is
refused. -/
theorem reads_valueOf (hpart : part.Rel Reads f) : (valueOf part).Reads (Tree.valueOf f) := by
  intro v s rest h
  cases v with
  | scalar reading =>
      obtain ⟨hread, hlist, hobject⟩ := Tree.read_of_scalar h
      cases hread with
      | error fault ho hr =>
          exact .error fault (by simp only [valueOf, ho])
            (by simp only [Tree.valueOf, Tree.accept, Tree.token, hr])
      | ok t ho hr =>
          simp only [valueOf, ho, Tree.valueOf, Tree.accept, Tree.token, hr]
          cases t with
          | null | boolean | integer | text => exact .ok _ rfl rfl
          | decimal => exact .error _ rfl rfl
          | list => exact absurd hr hlist
          | object => exact absurd hr hobject
  | list vs =>
      obtain ⟨s', hread, hvs⟩ := Tree.read_of_list h
      simp only [valueOf, hread, Tree.valueOf]
      cases hpart with
      | none => exact .error _ rfl rfl
      | @some p f hp =>
          cases items_is hp hvs with
          | error fault ho hr =>
              exact .error fault (by simp only [ho]) (by simp only [hr, Except.map])
          | ok as ho hr => exact .ok (.arr as) (by simp only [ho]) (by simp only [hr, Except.map])
  | object ms =>
      obtain ⟨s', hread, hms⟩ := Tree.read_of_object h
      simp only [valueOf, hread, Tree.valueOf]
      cases hpart with
      | none => exact .error _ rfl rfl
      | @some p f hp =>
          have hmembers : (membersFrom (entry p) true [] s').Is
              (Tree.members (Tree.entry f) [] ms) rest := by
            refine membersFrom_is ?_ hms
            intro key es v s s' rest hcolon h
            exact map_is (fun v => Entries.insert key v es) (readsMember_member key hp hcolon h)
          cases hmembers with
          | error fault ho hr =>
              exact .error fault (by simp only [ho]) (by simp only [hr, Except.map])
          | ok es ho hr => exact .ok (.obj es) (by simp only [ho]) (by simp only [hr, Except.map])

/-- **What the reader makes of any value**, whatever its layout. -/
theorem reads_value : ∀ levels, (value levels).Reads (Tree.value levels)
  | 0          => reads_valueOf .none
  | levels + 1 => reads_valueOf (.some (reads_value levels))

end Reader

/-! ### Values that are printed -/

mutual

/-- All integers of the value have 64 bits, and no object of it has a key twice. -/
def Faithful : Json → Prop
  | .null | .bool _ | .str _ => True
  | .int n  => Number.Held n
  | .arr vs => ItemsFaithful vs
  | .obj ms => (Entries.names ms).Nodup ∧ MembersFaithful ms

def ItemsFaithful : List Json → Prop
  | []      => True
  | v :: vs => v.Faithful ∧ ItemsFaithful vs

def MembersFaithful : List (String × Json) → Prop
  | []           => True
  | (_, v) :: ms => v.Faithful ∧ MembersFaithful ms

end

mutual

/-- How many brackets are open at once where the value nests deepest. -/
def levels : Json → Nat
  | .null | .bool _ | .int _ | .str _ => 0
  | .arr vs => itemsLevels vs + 1
  | .obj ms => membersLevels ms + 1

def itemsLevels : List Json → Nat
  | []      => 0
  | v :: vs => max v.levels (itemsLevels vs)

def membersLevels : List (String × Json) → Nat
  | []           => 0
  | (_, v) :: ms => max v.levels (membersLevels ms)

end

/-! ### What is printed is read back -/

namespace Tree

/-- A scalar is judged alike at every level. -/
theorem value_scalar (n : Nat) (reading : Except Flaw Token) :
    value n (.scalar reading) = (Tree.scalar reading).accept ofToken := by
  cases n <;> rfl

theorem value_arr (n : Nat) (vs : List Json) :
    value (n + 1) (Json.arr vs).outline.tree =
      (items (value n) 0 (Outline.trees (outlines vs))).map .arr :=
  rfl

theorem value_obj (n : Nat) (ms : Entries Json) :
    value (n + 1) (Json.obj ms).outline.tree =
      (members (entry (value n)) [] (Outline.memberTrees (memberOutlines ms))).map .obj :=
  rfl

/-- Members that are printed, from the first of them on. -/
theorem members_memberOutlines_cons (part : Tree → Except Flaw Json) (k : String) (v : Json)
    (ms : List (String × Json)) (before : Entries Json) :
    members (entry part) before (Outline.memberTrees (memberOutlines ((k, v) :: ms))) =
      match part v.outline.tree with
      | .error flaw => .error (flaw.within (.key k))
      | .ok v =>
        members (entry part) (Entries.insert k v before)
          (Outline.memberTrees (memberOutlines ms)) := by
  have hkey : (Key.ofText k).reading = .ok k := Key.reading_of_spells (Key.spells_ofText k)
  simp only [memberOutlines, Outline.memberTrees, members, hkey, entry, member]
  cases part v.outline.tree <;> rfl

mutual

/-- **A printed value comes to itself**, if it nests no deeper than is read. -/
theorem value_outline : ∀ {v : Json} {n : Nat}, v.Faithful → v.levels ≤ n →
    value n v.outline.tree = .ok v
  | .null, n, _, _ => value_scalar n _
  | .bool b, n, _, _ => by
      rw [outline, Outline.tree, value_scalar]
      cases b <;> rfl
  | .int k, n, hk, _ => by
      have hx : Scalar.IsInteger ⟨_, isScalar_integerText k⟩ k := rfl
      rw [outline, Outline.tree_of_isInteger hk hx, value_scalar]
      rfl
  | .str t, n, _, _ => by
      rw [outline, Outline.tree_of_isText (Scalar.isText_ofText t), value_scalar]
      rfl
  | .arr vs, n + 1, hvs, h => by
      rw [value_arr, items_outlines hvs (Nat.le_of_succ_le_succ h) 0]
      rfl
  | .obj ms, n + 1, ⟨hnodup, hms⟩, h => by
      have hmembers := members_memberOutlines [] hms (Nat.le_of_succ_le_succ h)
        (by simpa using hnodup)
      rw [value_obj, hmembers]
      rfl

/-- So do items. -/
theorem items_outlines : ∀ {vs : List Json} {n : Nat}, ItemsFaithful vs → itemsLevels vs ≤ n →
    ∀ i, items (value n) i (Outline.trees (outlines vs)) = .ok vs
  | [], _, _, _, _ => rfl
  | v :: vs, n, ⟨hv, hvs⟩, h, i => by
      obtain ⟨hlevels, hlater⟩ : v.levels ≤ n ∧ itemsLevels vs ≤ n := Nat.max_le.1 h
      simp only [outlines, Outline.trees, items, value_outline hv hlevels,
        items_outlines hvs hlater (i + 1), Except.map]

/-- So do members, behind those before them, if no key comes twice. -/
theorem members_memberOutlines : ∀ {ms : List (String × Json)}
    (before : List (String × Json)) {n : Nat},
    MembersFaithful ms → membersLevels ms ≤ n → (Entries.names (before ++ ms)).Nodup →
      members (entry (value n)) before (Outline.memberTrees (memberOutlines ms)) =
        .ok (before ++ ms)
  | [], before, _, _, _, _ => by rw [List.append_nil]; rfl
  | (k, v) :: ms, before, n, ⟨hv, hms⟩, h, hnodup => by
      obtain ⟨hlevels, hlater⟩ : v.levels ≤ n ∧ membersLevels ms ≤ n := Nat.max_le.1 h
      have hnew : k ∉ Entries.names before := by
        simp only [Entries.names, List.map_append, List.map_cons, List.nodup_append] at hnodup
        exact fun hk => hnodup.2.2 k hk k List.mem_cons_self rfl
      have hrest := members_memberOutlines (before ++ [(k, v)]) hms hlater (by simpa using hnodup)
      rw [members_memberOutlines_cons, value_outline hv hlevels]
      simpa [Entries.insert_of_not_mem hnew] using hrest

end

mutual

/-- **A printed value that nests deeper is refused** for its depth, wherever in it that is. -/
theorem value_outline_tooDeep : ∀ {v : Json} {n : Nat}, v.Faithful → n < v.levels →
    ∃ path, value n v.outline.tree = .error ⟨path, .tooDeep⟩
  | .null, n, _, h | .bool _, n, _, h | .int _, n, _, h | .str _, n, _, h =>
      absurd h (Nat.not_lt_zero n)
  | .arr _, 0, _, _ | .obj _, 0, _, _ => ⟨[], rfl⟩
  | .arr vs, n + 1, hvs, h => by
      obtain ⟨path, hitems⟩ := items_outlines_tooDeep hvs (Nat.lt_of_succ_lt_succ h) 0
      exact ⟨path, by rw [value_arr, hitems]; rfl⟩
  | .obj ms, n + 1, ⟨_, hms⟩, h => by
      obtain ⟨path, hmembers⟩ := members_memberOutlines_tooDeep [] hms (Nat.lt_of_succ_lt_succ h)
      exact ⟨path, by rw [value_obj, hmembers]; rfl⟩

/-- So are items, one of which nests deeper. -/
theorem items_outlines_tooDeep : ∀ {vs : List Json} {n : Nat}, ItemsFaithful vs →
    n < itemsLevels vs →
      ∀ i, ∃ path, items (value n) i (Outline.trees (outlines vs)) = .error ⟨path, .tooDeep⟩
  | [], n, _, h, _ => absurd h (Nat.not_lt_zero n)
  | v :: vs, n, ⟨hv, hvs⟩, h, i => by
      -- the first item that nests too deep is told; those before it are read
      by_cases hlevels : v.levels ≤ n
      · have hlater : n < itemsLevels vs := (lt_max_iff.1 h).resolve_left hlevels.not_gt
        obtain ⟨path, hrest⟩ := items_outlines_tooDeep hvs hlater (i + 1)
        refine ⟨path, ?_⟩
        simp only [outlines, Outline.trees, items, value_outline hv hlevels, hrest, Except.map]
      · obtain ⟨path, hfirst⟩ := value_outline_tooDeep hv (Nat.lt_of_not_le hlevels)
        refine ⟨.item i :: path, ?_⟩
        simp only [outlines, Outline.trees, items, hfirst, Flaw.within]

/-- So are members. -/
theorem members_memberOutlines_tooDeep : ∀ {ms : List (String × Json)}
    (before : Entries Json) {n : Nat}, MembersFaithful ms → n < membersLevels ms →
      ∃ path, members (entry (value n)) before (Outline.memberTrees (memberOutlines ms)) =
        .error ⟨path, .tooDeep⟩
  | [], _, n, _, h => absurd h (Nat.not_lt_zero n)
  | (k, v) :: ms, before, n, ⟨hv, hms⟩, h => by
      by_cases hlevels : v.levels ≤ n
      · have hlater : n < membersLevels ms := (lt_max_iff.1 h).resolve_left hlevels.not_gt
        obtain ⟨path, hrest⟩ :=
          members_memberOutlines_tooDeep (Entries.insert k v before) hms hlater
        exact ⟨path, by simp only [members_memberOutlines_cons, value_outline hv hlevels, hrest]⟩
      · obtain ⟨path, hfirst⟩ := value_outline_tooDeep hv (Nat.lt_of_not_le hlevels)
        refine ⟨.key k :: path, ?_⟩
        simp only [members_memberOutlines_cons, hfirst, Flaw.within]

end

end Tree

/-- A printed file starts with its value; a line end is left after it. -/
theorem after?_bytes_render (v : Json) :
    v.outline.tree.after? (Text.bytes (render v)) = some [octet '\n'] := by
  have hend : Blanks [octet '\n'] := by
    intro b hb
    rw [List.mem_singleton.1 hb]
    rfl
  rw [bytes_render]
  exact Outline.after?_of_laid (laid_prettyChars 0 v) (Outline.ends_of_stops hend.stops _)

/-- **A printed file is read back to its value**, if it nests no deeper than may be. -/
theorem parse_render {v : Json} (hv : v.Faithful) (hlevels : v.levels ≤ maxLevels) :
    parse (Text.bytes (render v)) = .ok v := by
  have hvalue := Tree.value_outline hv hlevels
  cases Reader.reads_value maxLevels (after?_bytes_render v) with
  | error fault ho hr => cases hvalue.symm.trans hr
  | ok v' ho hr =>
      obtain rfl := Except.ok.inj (hvalue.symm.trans hr)
      rw [parse, ho]
      rfl

/-- **A printed file that nests deeper is refused for it.** -/
theorem parse_render_tooDeep {v : Json} (hv : v.Faithful) (hlevels : maxLevels < v.levels) :
    ∃ e, parse (Text.bytes (render v)) = .error e ∧ e.cause = .tooDeep := by
  obtain ⟨path, hvalue⟩ := Tree.value_outline_tooDeep hv hlevels
  cases Reader.reads_value maxLevels (after?_bytes_render v) with
  | ok v' ho hr => cases hvalue.symm.trans hr
  | error fault ho hr =>
      have hflaw : fault.flaw = ⟨path, .tooDeep⟩ := (Except.error.inj (hvalue.symm.trans hr)).symm
      exact ⟨fault.locate _, by rw [parse, ho], congrArg Flaw.cause hflaw⟩

end InterfaceSchema.Json
