import InterfaceSchema.Proofs.Targets

/-!
# What a write changes

A write makes the directories on its path that are missing, one by one, and then opens the file.
Either can fail half way.  A directory is on the path if its steps are the first ones of those of
the path, and not all of them (`Path.Above`).

* `Path.ancestors_eq`: cutting a path back step by step gives paths above it, however it is
  spelled: with points, with slashes in a row or at its end.
* `Disk.growsAbove_makeDirectories`: each directory made is where a path above the file's leads.
* `writeFile_changes`: a write that succeeds changes the file of its path and no other; one that
  fails changes no file; and either makes directories above the path only.
-/

namespace InterfaceSchema

namespace Files

namespace Path

variable {p q r : Path} {anchor : Anchor} {s : String} {ss reversed : List String}

/-! ### Beginnings -/

/-- The step that a path begins with. -/
def Anchor.steps : Anchor → List Component
  | .root => [.root]
  | .current => [.current]
  | .none => []

/-- The segments that a path begins with. -/
def Anchor.segments : Anchor → List String
  | .root => [""]
  | .current => ["."]
  | .none => []

theorem components_of_split (h : p.split = (anchor, ss)) :
    p.components = anchor.steps ++ ss.filterMap component? := by
  rw [components, h]
  cases anchor <;> rfl

theorem joined_segments (p : Path) : joined p.segments = p.text := by
  apply String.toList_injective
  rw [joined, String.toList_intercalate, segments, List.map_map]
  have hpieces : String.toList ∘ String.ofList = id := funext fun _ => String.toList_ofList
  rw [hpieces, List.map_id]
  exact List.intercalate_splitOn '/'

theorem joined_append_singleton (h : ss ≠ []) (s : String) :
    joined (ss ++ [s]) = joined ss ++ "/" ++ s := by
  rw [joined, String.intercalate_append_of_ne_nil h (List.cons_ne_nil s []),
    String.intercalate_singleton, joined]

/-- An absolute path begins with an empty segment and goes on after it. -/
theorem segments_of_isAbsolute (h : p.isAbsolute) : ∃ q : Path, p.segments = "" :: q.segments := by
  obtain ⟨text⟩ := p
  cases htext : text.toList with
  | nil => simp [isAbsolute, htext] at h
  | cons c cs =>
      obtain rfl : c = '/' := by simpa [isAbsolute, htext] using h
      have hslash : text = "" ++ "/" ++ .ofList cs := String.toList_injective (by simp [htext])
      refine ⟨⟨.ofList cs⟩, ?_⟩
      rw [hslash, segments_append_slash]
      rfl

/-- What a path with a beginning and segments after it looks like. -/
theorem split_eq_iff : p.split = (anchor, ss) ↔
    p.segments = anchor.segments ++ ss ∧
      match anchor with
      | .root => p.isAbsolute = true
      | .current => True
      | .none => p.isAbsolute = false ∧ ss.head? ≠ some "." := by
  unfold split
  split
  · next hsegments =>
      rw [hsegments]
      cases anchor <;> grind [Anchor.segments]
  · next s ss' hpoint hsegments =>
      rw [hsegments]
      cases hstart : p.isAbsolute with
      | true =>
          obtain ⟨q, hq⟩ := segments_of_isAbsolute hstart
          obtain ⟨rfl, -⟩ := List.cons.inj (hsegments.symm.trans hq)
          cases anchor <;> simp [Anchor.segments]
      | false => cases anchor <;> grind [Anchor.segments]
  · next hsegments => exact absurd hsegments (segments_ne_nil p)

/-- A beginning and the segments after it are put together as all segments of a path are. -/
theorem text_ofSplit (h : anchor = .root → ss ≠ []) :
    (ofSplit anchor ss).text = joined (anchor.segments ++ ss) := by
  cases anchor with
  | root =>
      rw [Anchor.segments, List.singleton_append, joined,
        String.intercalate_cons_of_ne_nil (h rfl), String.empty_append]
      rfl
  | current => rfl
  | none => rfl

theorem ofSplit_of_split (h : p.split = (anchor, ss)) : ofSplit anchor ss = p := by
  obtain ⟨hsegments, hstart⟩ := split_eq_iff.1 h
  have hmore : anchor = .root → ss ≠ [] := by
    rintro rfl
    obtain ⟨q, hq⟩ := segments_of_isAbsolute hstart
    obtain ⟨-, rfl⟩ := List.cons.inj (hsegments.symm.trans hq)
    exact segments_ne_nil q
  have htext : (ofSplit anchor ss).text = p.text := by
    rw [text_ofSplit hmore, ← hsegments, joined_segments]
  exact congrArg Path.mk htext

/-- A path without its last segment begins where the path begins. -/
theorem split_ofSplit_of_append (hss : ss ≠ [])
    (h : (ofSplit anchor (ss ++ [s])).split = (anchor, ss ++ [s])) :
    (ofSplit anchor ss).split = (anchor, ss) := by
  obtain ⟨hsegments, hstart⟩ := split_eq_iff.1 h
  have hlonger : (ofSplit anchor (ss ++ [s])).text = (ofSplit anchor ss).text ++ "/" ++ s := by
    rw [text_ofSplit fun _ => hss, text_ofSplit fun _ => List.append_ne_nil_of_left_ne_nil hss _,
      ← List.append_assoc, joined_append_singleton (List.append_ne_nil_of_right_ne_nil _ hss)]
  have htext : ofSplit anchor (ss ++ [s]) = ⟨(ofSplit anchor ss).text ++ "/" ++ s⟩ :=
    congrArg Path.mk hlonger
  have hlast : s ∈ (ofSplit anchor (ss ++ [s])).segments := by
    rw [hsegments]
    exact List.mem_append_right _ (List.mem_append_right _ List.mem_cons_self)
  rw [htext, segments_append_slash, segments_of_not_mem (not_mem_of_mem_segments hlast),
    ← List.append_assoc] at hsegments
  refine split_eq_iff.2 ⟨List.append_cancel_right hsegments, ?_⟩
  rw [htext, String.append_assoc] at hstart
  cases anchor with
  | root => exact isAbsolute_append "/" (joined ss) (by decide)
  | current => trivial
  | none =>
      obtain ⟨hrelative, hhead⟩ := hstart
      have hne : (ofSplit .none ss).text ≠ "" := by
        intro hempty
        rw [hempty] at hrelative
        simp [isAbsolute] at hrelative
      rw [isAbsolute_append _ _ hne] at hrelative
      refine ⟨hrelative, ?_⟩
      rwa [List.head?_append_of_ne_nil _ hss] at hhead

/-! ### Paths above -/

/-- A path stands above another one: its steps are the first ones of those of the other, and not
all of them. -/
def Above (q p : Path) : Prop := q.components <+: p.components ∧ q.components ≠ p.components

instance (q p : Path) : Decidable (q.Above p) :=
  inferInstanceAs (Decidable (q.components <+: p.components ∧ q.components ≠ p.components))

theorem Above.trans (h : r.Above q) (h' : q.Above p) : r.Above p := by
  refine ⟨h.1.trans h'.1, fun hall => h'.2 (h'.1.eq_of_length_le ?_)⟩
  rw [← hall]
  exact h.1.length_le

theorem above_of_components {c : Component} (h : p.components = q.components ++ [c]) :
    q.Above p := by
  refine ⟨h ▸ List.prefix_append _ _, fun hall => ?_⟩
  rw [hall] at h
  exact List.cons_ne_nil c [] (List.self_eq_append_right.1 h)

theorem component?_of_not_isVoid (h : ¬ isVoid s) : ∃ c, component? s = some c := by
  rw [component?, if_neg h]
  split
  · exact ⟨_, rfl⟩
  · exact ⟨_, rfl⟩

/-- Cutting a path back starts from its steps, however they are spelled, and goes to paths above
it. -/
theorem ancestorsOf_eq
    (h : reversed ≠ [] → (ofSplit anchor reversed.reverse).split = (anchor, reversed.reverse)) :
    ∃ first above, ancestorsOf anchor reversed = first :: above ∧
      first.components = anchor.steps ++ reversed.reverse.filterMap component? ∧
      ∀ q ∈ above, q.Above first := by
  induction reversed with
  | nil =>
      cases anchor with
      | root => exact ⟨⟨"/"⟩, [], rfl, by decide, by decide⟩
      | current => exact ⟨⟨"."⟩, [⟨""⟩], rfl, by decide, by decide⟩
      | none => exact ⟨⟨""⟩, [], rfl, by decide, by decide⟩
  | cons s reversed ih =>
      have hsplit := h (List.cons_ne_nil s reversed)
      rw [List.reverse_cons] at hsplit ⊢
      obtain ⟨first, above, hrest, hfirst, habove⟩ := ih fun hne =>
        split_ofSplit_of_append (List.reverse_ne_nil_iff.2 hne) hsplit
      by_cases hvoid : isVoid s
      · refine ⟨first, above, ?_, ?_, habove⟩
        · rw [ancestorsOf, if_pos hvoid, hrest]
        · simp [hfirst, component?, hvoid]
      · obtain ⟨c, hc⟩ := component?_of_not_isVoid hvoid
        have hcomponents := components_of_split hsplit
        have hup : first.Above (ofSplit anchor (reversed.reverse ++ [s])) :=
          above_of_components (c := c) (by simp [hcomponents, hfirst, hc])
        refine ⟨_, first :: above, ?_, hcomponents, ?_⟩
        · rw [ancestorsOf, if_neg hvoid, hrest, List.reverse_cons]
        · rintro q hq
          rcases List.mem_cons.1 hq with rfl | hq
          · exact hup
          · exact (habove q hq).trans hup

/-- **Cutting a path back step by step gives paths above it.** -/
theorem ancestors_eq (p : Path) : ∃ first above, p.ancestors = first :: above ∧
    first.components = p.components ∧ ∀ q ∈ above, q.Above p := by
  have hsplit : p.split = (p.split.1, p.split.2) := rfl
  obtain ⟨first, above, hancestors, hfirst, habove⟩ :=
    @ancestorsOf_eq p.split.1 p.split.2.reverse fun _ => by
      rw [List.reverse_reverse, ofSplit_of_split hsplit]
  rw [List.reverse_reverse, ← components_of_split hsplit] at hfirst
  refine ⟨first, above, hancestors, hfirst, fun q hq => ?_⟩
  rw [Above, ← hfirst]
  exact habove q hq

/-- The directory of a path, and what is above that, are above the path. -/
theorem above_of_mem_ancestors (h : p.parent? = some q) (hr : r ∈ q.ancestors) : r.Above p := by
  obtain ⟨first, above, hancestors, -, habove⟩ := ancestors_eq p
  rw [parent?, hancestors, List.getElem?_cons_succ] at h
  have hq : q.Above p := habove q (List.mem_of_getElem? h)
  obtain ⟨first', above', hancestors', hfirst', habove'⟩ := ancestors_eq q
  rw [hancestors'] at hr
  rcases List.mem_cons.1 hr with rfl | hr
  · rw [Above, hfirst']
    exact hq
  · exact (habove' r hr).trans hq

end Path

/-! ### Directories that are made -/

namespace Disk

variable {d d' d'' : Disk} {p q : Path} {l : Location} {content : String}

/-- No directory goes, and each that comes stands where a path above another one leads. -/
structure GrowsAbove (p : Path) (d d' : Disk) : Prop where
  working : d'.working = d.working
  keeps : ∀ k, d.at? k = some .directory → d'.at? k = some .directory
  above : ∀ k, d.at? k ≠ some .directory → d'.at? k = some .directory →
    ∃ q : Path, q.Above p ∧ d'.goal q = .ok (.name k)

namespace GrowsAbove

@[refl] theorem refl (d : Disk) : GrowsAbove p d d where
  working := rfl
  keeps _ := id
  above _ hfree hmade := absurd hmade hfree

/-- A path that leads to a new directory still leads there when more is made. -/
theorem trans (h : GrowsAbove p d d') (h' : GrowsAbove p d' d'') : GrowsAbove p d d'' where
  working := h'.working.trans h.working
  keeps k hk := h'.keeps k (h.keeps k hk)
  above k hfree hmade := by
    by_cases hk : d'.at? k = some .directory
    · obtain ⟨q, hq, hgoal⟩ := h.above k hfree hk
      exact ⟨q, hq, goal_of_keeps h'.working h'.keeps hgoal⟩
    · exact h'.above k hk hmade

/-- An entry may be put where a path leads and no directory is, and be a directory if the path is
above. -/
theorem put (hgoal : d.goal q = .ok (.name l)) (hplace : d.at? l ≠ some .directory) {e : Entry}
    (he : e = .directory → q.Above p) : GrowsAbove p d (d.put l e) := by
  have hl := ne_nil_of_goal hgoal
  have hkeeps : ∀ k, d.at? k = some .directory → (d.put l e).at? k = some .directory :=
    fun _ => keeps_put hl hplace e
  refine ⟨working_put _, hkeeps, fun k hk hmade => ?_⟩
  rw [at?_put hl] at hmade
  split at hmade
  · next hhere =>
      rw [hhere]
      exact ⟨q, he (Option.some.inj hmade), goal_of_keeps (working_put _) hkeeps hgoal⟩
  · exact absurd hmade hk

end GrowsAbove

theorem growsAbove_ensureDirectory (hq : q.Above p) (h : d.ensureDirectory q = .ok d') :
    GrowsAbove p d d' := by
  rcases eq_or_makeDirectory h with rfl | hmade
  · exact .refl d'
  · obtain ⟨l, hgoal, hfree, rfl⟩ := makeDirectory_eq_ok_iff.1 hmade
    exact .put hgoal (by simp [hfree]) fun _ => hq

/-- **Making the directories of a path** makes them where paths above it lead, whether or not all
of them can be made. -/
theorem growsAbove_makeDirectories (h : p.parent? = some q) (d : Disk) :
    GrowsAbove p d (d.makeDirectories q.ancestors).2 :=
  makeDirectories_induction .refl .trans
    (fun hr hstep => growsAbove_ensureDirectory (Path.above_of_mem_ancestors h hr) hstep) d

/-- Creating a file makes no directory and removes none. -/
theorem growsAbove_createFile (h : d.createFile p content = .ok d') : GrowsAbove p d d' := by
  obtain ⟨l, hgoal, hplace, rfl⟩ := createFile_eq_ok_iff.1 h
  exact .put hgoal hplace nofun

end Disk
end Files

open Files (Path Disk)

/-! ### The whole write -/

theorem writeFile_growsAbove (d : Disk) (p : Path) (content : String) :
    d.GrowsAbove p (writeFile d p content).2 := by
  unfold writeFile
  cases hq : directoryFor? p with
  | none =>
      cases hfile : d.createFile p content with
      | error e => simpa only [hfile] using .refl d
      | ok d' => simpa only [hfile] using Disk.growsAbove_createFile hfile
  | some q =>
      have hmade := Disk.growsAbove_makeDirectories (Option.filter_eq_some_iff.1 hq).1 d
      rcases hdirectories : d.makeDirectories q.ancestors with ⟨result, made⟩
      simp only [hdirectories] at hmade ⊢
      cases result with
      | error e => exact hmade
      | ok =>
          cases hfile : made.createFile p content with
          | error e => simpa only [hfile] using hmade
          | ok d' => simpa only [hfile] using hmade.trans (Disk.growsAbove_createFile hfile)

/-- **What a write changes.**  It makes directories where paths above its own lead, and removes
none.  If it succeeds its path leads to a file with the content, and all other files are as they
were; if it fails all files are. -/
theorem writeFile_changes (d : Disk) (p : Path) (content : String) :
    d.GrowsAbove p (writeFile d p content).2 ∧
      match writeFile d p content with
      | (.ok (), d') =>
          ∃ l, d'.goal p = .ok (.name l) ∧ d'.at? l = some (.file content) ∧
            ∀ k, k ≠ l → ∀ text, d'.at? k = some (.file text) ↔ d.at? k = some (.file text)
      | (.error _, d') =>
          ∀ k text, d'.at? k = some (.file text) ↔ d.at? k = some (.file text) := by
  refine ⟨writeFile_growsAbove d p content, ?_⟩
  have hwrites := writes_writeFile d p content
  rcases hwritten : writeFile d p content with ⟨result, d'⟩
  rw [hwritten] at hwrites
  cases hwrites with
  | noDirectory _ hmade => exact hmade.file_iff
  | noFile hmade => exact hmade.file_iff
  | @written made _ hmade hfile =>
      have hgrows := Disk.growsAbove_createFile hfile
      obtain ⟨l, hgoal, -, rfl⟩ := Disk.createFile_eq_ok_iff.1 hfile
      have hl := Disk.ne_nil_of_goal hgoal
      refine ⟨l, Disk.goal_of_keeps hgrows.working hgrows.keeps hgoal, ?_, fun k hk text => ?_⟩
      · rw [Disk.at?_put hl, if_pos rfl]
      · rw [Disk.at?_put hl, if_neg hk]
        exact hmade.file_iff k text

/-- A write can fail after it made a directory, here the one that the path goes through and leaves
again before it runs into a file. -/
example :
    writeFile ⟨[(["work"], .directory), (["f", "work"], .file "old")], ["work"]⟩
        ⟨"a/../f/x"⟩ "new" =
      (.error ⟨⟨"a/../f"⟩, .alreadyExists⟩,
        ⟨[(["work"], .directory), (["f", "work"], .file "old"), (["a", "work"], .directory)],
          ["work"]⟩) := rfl

end InterfaceSchema
