import InterfaceSchema.Proofs.Pointers
import InterfaceSchema.Proofs.Runs

/-!
# Where documents go

A document that goes into a directory goes to a file named after its schema.  The path of the file
is that of the directory with one more segment (`Joins`), so it has one more step
(`components_of_joins`), and on a disk it leads to that name in the directory
(`leadsTo_of_goal`).  All this holds of names without a slash; a slash cuts the name into several
segments, or makes it a path of its own.

* `Target.resolve_inside_iff`: the file stands in the directory, under its name, exactly when the
  name of the schema has no slash; and then nothing else on the disk gets another text.
-/

namespace InterfaceSchema

namespace Files

namespace Path
variable {p q : Path} {name : String}

/-! ### Segments -/

theorem segments_append_slash (a b : String) :
    segments ⟨a ++ "/" ++ b⟩ = segments ⟨a⟩ ++ segments ⟨b⟩ := by
  simp [segments, List.splitOn_append_cons_self]

theorem segments_of_not_mem (h : '/' ∉ name.toList) : segments ⟨name⟩ = [name] := by
  simp [segments, List.splitOn_eq_singleton h]

theorem segments_ne_nil (p : Path) : p.segments ≠ [] := by
  simp [segments, List.splitOn_ne_nil]

theorem not_mem_of_mem_segments (h : name ∈ p.segments) : '/' ∉ name.toList := by
  obtain ⟨piece, hpiece, rfl⟩ := List.mem_map.1 h
  rw [String.toList_ofList]
  exact Json.not_mem_of_mem_splitOn hpiece

theorem isAbsolute_append (a b : String) (ha : a ≠ "") :
    isAbsolute ⟨a ++ b⟩ = isAbsolute ⟨a⟩ := by
  have hne : a.toList ≠ [] := by simpa using ha
  obtain ⟨c, cs, hcs⟩ := List.exists_cons_of_ne_nil hne
  simp [isAbsolute, hcs]

theorem not_isAbsolute_of_not_mem (h : '/' ∉ name.toList) : isAbsolute ⟨name⟩ = false := by
  cases hname : name.toList with
  | nil => simp [isAbsolute, hname]
  | cons c cs =>
      have hc : c ≠ '/' := by
        rintro rfl
        exact h (hname ▸ List.mem_cons_self)
      simp [isAbsolute, hname, hc]

/-- A path goes on from another one by a single segment, and starts where that one starts. -/
structure Joins (p : Path) (name : String) (q : Path) : Prop where
  isAbsolute : q.isAbsolute = p.isAbsolute
  segments : ∃ s ss, q.segments = s :: (ss ++ [name]) ∧
    (p.segments = s :: ss ∨ p.segments = s :: (ss ++ [""]))

/-- **A name without a slash is one more segment**, whether or not the path ends in a slash. -/
theorem joins_join (hp : p.text ≠ "") (h : '/' ∉ name.toList) : p.Joins name (p.join ⟨name⟩) := by
  obtain ⟨text⟩ := p
  rw [join, if_neg (by simp [not_isAbsolute_of_not_mem h])]
  split
  · next hends =>
      -- a slash at the end leaves an empty segment, and the name takes its place
      have hlast : text.toList.getLast? = some '/' := hends.resolve_left hp
      obtain ⟨cs, hcs⟩ := List.getLast?_eq_some_iff.1 hlast
      have htext : text = .ofList cs ++ "/" := String.toList_injective (by simp [hcs])
      obtain ⟨s, ss, hsegments⟩ := List.exists_cons_of_ne_nil (segments_ne_nil ⟨.ofList cs⟩)
      refine ⟨isAbsolute_append text name hp, s, ss, ?_, .inr ?_⟩
      · rw [htext, segments_append_slash, segments_of_not_mem h, hsegments, List.cons_append]
      · have hempty := segments_append_slash (.ofList cs) ""
        rwa [String.append_empty, ← htext, hsegments] at hempty
  · obtain ⟨s, ss, hsegments⟩ := List.exists_cons_of_ne_nil (segments_ne_nil ⟨text⟩)
    refine ⟨?_, s, ss, ?_, .inl hsegments⟩
    · rw [String.append_assoc]
      exact isAbsolute_append text _ hp
    · rw [segments_append_slash, segments_of_not_mem h, hsegments, List.cons_append]

/-! ### Steps -/

/-- The steps of a path: those of its first segment, and one for each other segment that means
something. -/
theorem components_of_segments {s : String} {ss : List String} (h : p.segments = s :: ss) :
    p.components = (if s = "." then [.current] else if p.isAbsolute then [.root]
      else (component? s).toList) ++ ss.filterMap component? := by
  by_cases hpoint : s = "."
  · simp [components, split, h, hpoint]
  · have hsplit : p.split = if p.isAbsolute then (.root, ss) else (.none, s :: ss) := by
      unfold split
      rw [h]
      split
      · next heq => exact absurd (List.cons.inj heq).1 hpoint
      · next heq => cases heq; rfl
      · next heq => cases heq
    rw [components, hsplit, if_neg hpoint]
    cases p.isAbsolute with
    | true => rfl
    | false => cases hs : component? s <;> simp [hs]

/-- **One more segment is one more step.** -/
theorem components_of_joins (h : p.Joins name q) :
    q.components = p.components ++ (component? name).toList := by
  have hvoid : component? "" = none := rfl
  obtain ⟨hstart, s, ss, hq, hp⟩ := h
  rw [components_of_segments hq, hstart]
  rcases hp with hp | hp
  · rw [components_of_segments hp]
    cases hname : component? name <;> simp [hname]
  · rw [components_of_segments hp]
    cases hname : component? name <;> simp [hname, hvoid]

/-- No step has a slash in its name. -/
theorem not_mem_of_mem_components (h : .name name ∈ p.components) : '/' ∉ name.toList := by
  obtain ⟨s, ss, hsegments⟩ := List.exists_cons_of_ne_nil (segments_ne_nil p)
  have hname : ∀ s ∈ p.segments, component? s = some (.name name) → '/' ∉ name.toList := by
    intro s hs hcomponent
    unfold component? at hcomponent
    split at hcomponent
    · cases hcomponent
    · split at hcomponent
      · cases hcomponent
      · cases hcomponent
        exact not_mem_of_mem_segments hs
  rw [components_of_segments hsegments] at h
  rcases List.mem_append.1 h with hfirst | hrest
  · split at hfirst
    · cases List.mem_singleton.1 hfirst
    · split at hfirst
      · cases List.mem_singleton.1 hfirst
      · exact hname s (hsegments ▸ List.mem_cons_self) (Option.mem_toList.1 hfirst)
  · obtain ⟨s', hs', hcomponent⟩ := List.mem_filterMap.1 hrest
    exact hname s' (hsegments ▸ List.mem_cons_of_mem s hs') hcomponent

end Path

/-! ### On a disk -/

namespace Disk
variable {d d' : Disk} {p q : Path} {name content : String} {l k : Location}

/-- A path leads to a directory. -/
def LeadsTo (d : Disk) (p : Path) (l : Location) : Prop := d.walk (d.start p) p.segments = .ok l

theorem walk_append (d : Disk) (l : Location) (ss ss' : List String) :
    d.walk l (ss ++ ss') = (d.walk l ss).bind (d.walk · ss') := by
  induction ss generalizing l with
  | nil => rfl
  | cons s ss ih =>
      simp only [List.cons_append, walk]
      split
      · exact ih l
      · split
        · exact ih l.tail
        · split
          · rfl
          · split
            · rfl
            · rfl
            · exact ih (s :: l)

theorem walk_append_empty (d : Disk) (l : Location) (ss : List String) :
    d.walk l (ss ++ [""]) = d.walk l ss := by
  rw [walk_append]
  cases d.walk l ss <;> rfl

theorem goal_eq_name (h : d.goal p = .ok (.name l)) :
    ∃ ss s k, p.segments = ss ++ [s] ∧ d.walk (d.start p) ss = .ok k ∧ l = s :: k := by
  unfold goal at h
  split at h
  · cases h
  · split at h
    · cases h
    · next s ss hsegments =>
        split at h
        · cases h
        · next k hwalk =>
            split at h
            · cases h
            · split at h
              · cases h
              · cases h
                exact ⟨ss.reverse, s, k, List.reverse_eq_cons_iff.1 hsegments, hwalk, rfl⟩

/-- **A path that goes on by one segment leads to that name** in the directory that it goes on
from. -/
theorem leadsTo_of_goal (hjoins : p.Joins name q) (h : d.goal q = .ok (.name l)) :
    ∃ k, d.LeadsTo p k ∧ l = name :: k := by
  obtain ⟨hstart, s, ss, hq, hp⟩ := hjoins
  obtain ⟨ss', s', k, hsegments, hwalk, rfl⟩ := goal_eq_name h
  have hsplit : ss' ++ [s'] = (s :: ss) ++ [name] := hsegments.symm.trans hq
  obtain ⟨rfl, hlast⟩ := List.append_inj' hsplit rfl
  obtain rfl := List.singleton_inj.1 hlast
  refine ⟨k, ?_, rfl⟩
  have hsame : d.start q = d.start p := by rw [start, start, hstart]
  rw [LeadsTo, ← hsame, ← hwalk]
  rcases hp with hp | hp
  · rw [hp]
  · rw [hp, ← List.cons_append, walk_append_empty]

/-- All files are the same but for one of a name in the directory that a path leads to. -/
def ChangesOnly (d d' : Disk) (p : Path) (name : String) : Prop :=
  ∀ l, (∃ k, d'.LeadsTo p k ∧ l = name :: k) ∨
    ∀ text, d'.at? l = some (.file text) ↔ d.at? l = some (.file text)

end Disk
end Files

open Files (Path Disk)

/-! ### The file of a schema -/

variable {name out : String}

theorem fileName_toList (name : String) : (fileName name).toList =
    (if name = "" then "anonymous" else name).toList ++ ".json".toList := by
  rw [fileName, suffix, String.toList_append]

theorem not_mem_fileName_iff : '/' ∉ (fileName name).toList ↔ '/' ∉ name.toList := by
  rw [fileName_toList]
  split
  · next hempty => simp [hempty]
  · simp

/-- The name of a file is a step of its own: it is neither empty nor a point nor two. -/
theorem component?_fileName (name : String) :
    Path.component? (fileName name) = some (.name (fileName name)) := by
  have hlong : 5 ≤ (fileName name).toList.length := by
    rw [fileName_toList, List.length_append]
    exact Nat.le_add_left 5 _
  have hne : ∀ s : String, s.toList.length < 5 → fileName name ≠ s := by
    rintro s hs rfl
    exact absurd hlong (Nat.not_le.2 hs)
  rw [Path.component?, if_neg, if_neg (hne Path.upward (by decide))]
  simp [Path.isVoid, hne "" (by decide), hne "." (by decide)]

/-! ### Where it stands -/

/-- A target is the file of a name in a directory. -/
def Target.Inside (t : Target) (directory : Path) (name : String) : Prop :=
  ∃ p, t = .file p ∧ p.components = directory.components ++ [.name name]

theorem Target.resolve_of_directory (hout : out ≠ "")
    (hdirectory : suffix.toList.isSuffixOf out.toList = false) (name : String) :
    resolve (some out) name = .file (Path.join ⟨out⟩ ⟨fileName name⟩) := by
  have hgiven : nonEmpty? (some out) = some out := nonEmpty?_eq_some_iff.2 ⟨rfl, hout⟩
  simp only [resolve, hgiven, hdirectory]
  rfl

/-- **Writing a file in a directory** changes that file only. -/
theorem writeFile_changesOnly {p q : Path} (hjoins : p.Joins name q) (d : Disk)
    (content : String) : d.ChangesOnly (writeFile d q content).2 p name := by
  have hwrites := writes_writeFile d q content
  rcases hwritten : writeFile d q content with ⟨result, d'⟩
  rw [hwritten] at hwrites
  cases hwrites with
  | noDirectory _ hmade => exact fun l => .inr (hmade.file_iff l)
  | noFile hmade => exact fun l => .inr (hmade.file_iff l)
  | @written made _ hmade hfile =>
      obtain ⟨l, hgoal, hplace, rfl⟩ := Disk.createFile_eq_ok_iff.1 hfile
      have hl := Disk.ne_nil_of_goal hgoal
      -- the directory is reached on the disk with the directories made, and then on the last one,
      -- since the file stands where no directory is
      obtain ⟨k, hleads, rfl⟩ := Disk.leadsTo_of_goal hjoins hgoal
      intro l
      by_cases hk : l = name :: k
      · refine .inl ⟨k, ?_, hk⟩
        have hstart : (made.put (name :: k) (.file content)).start p = made.start p := by
          rw [Disk.start, Disk.start, Disk.working_put]
        rw [Disk.LeadsTo, hstart]
        exact Disk.walk_of_keeps (fun _ => Disk.keeps_put hl hplace _) hleads
      · refine .inr fun text => ?_
        rw [Disk.at?_put hl, if_neg hk]
        exact hmade.file_iff l text

theorem Plan.disk_carryOut_save (succeeds : Bool) (notices : List Notice) (path : Path)
    (text : String) (disk : Disk) :
    (carryOut ⟨succeeds, notices, .save path text⟩ disk).disk = (writeFile disk path text).2 := by
  simp only [carryOut]
  rcases writeFile disk path text with ⟨result, disk'⟩
  cases result <;> rfl

/-- **A run that is told a directory** changes the file of the schema in it and no other, if the
name of the schema has no slash. -/
theorem runProgram_changesOnly {args : List String} {c : CommandLine} {input : Stream} {s : Schema}
    (hargs : CommandLine.ofArguments args = .ok c) (hasked : c.out = some out) (hout : out ≠ "")
    (hdirectory : suffix.toList.isSuffixOf out.toList = false)
    (hread : Schema.ofStream input = .ok s) (hname : '/' ∉ s.name.toList) (disk : Disk) :
    disk.ChangesOnly (runProgram args input disk).disk ⟨out⟩ (fileName s.name) := by
  have hsame : disk.ChangesOnly disk ⟨out⟩ (fileName s.name) := fun _ => .inr fun _ => Iff.rfl
  rw [runProgram_of_arguments hargs]
  cases hconverted : Document.ofSchema s with
  | error e =>
      obtain ⟨told, -, hplan⟩ :=
        Plan.ofCommandLine_of_refuses (c := c) (.conversion hread hconverted)
      rw [hplan]
      exact hsame
  | ok d =>
      obtain ⟨told, -, hplan⟩ := Plan.ofCommandLine_of_produces (c := c) ⟨hread, hconverted⟩
      have hjoins := Path.joins_join hout (not_mem_fileName_iff.2 hname)
      rw [hasked, Target.resolve_of_directory hout hdirectory] at hplan
      rw [hplan, Delivery.ofTarget, Plan.disk_carryOut_save]
      exact writeFile_changesOnly hjoins disk d.render

/-- **The file of a schema stands in the directory that was asked for, under the name of the
schema, exactly when that name has no slash.**  A run on such a schema changes no other file. -/
theorem Target.resolve_inside_iff (hout : out ≠ "")
    (hdirectory : suffix.toList.isSuffixOf out.toList = false) (name : String) :
    ((resolve (some out) name).Inside ⟨out⟩ (fileName name) ↔ '/' ∉ name.toList) ∧
      ('/' ∉ name.toList → ∀ {args : List String} {c : CommandLine} {input : Stream} {s : Schema},
        CommandLine.ofArguments args = .ok c → c.out = some out →
          Schema.ofStream input = .ok s → s.name = name → ∀ disk : Disk,
            disk.ChangesOnly (runProgram args input disk).disk ⟨out⟩ (fileName name)) := by
  refine ⟨⟨?_, fun hname => ?_⟩, ?_⟩
  · rintro ⟨p, -, hcomponents⟩
    refine not_mem_fileName_iff.1 (Path.not_mem_of_mem_components (p := p) ?_)
    rw [hcomponents]
    exact List.mem_append_right _ List.mem_cons_self
  · refine ⟨_, resolve_of_directory hout hdirectory name, ?_⟩
    rw [Path.components_of_joins (Path.joins_join hout (not_mem_fileName_iff.2 hname)),
      component?_fileName]
    rfl
  · rintro hname args c input s hargs hasked hread rfl disk
    exact runProgram_changesOnly hargs hasked hout hdirectory hread hname disk

/-- A name of points, which is a name all the same, in a directory with a slash at its end. -/
theorem Target.resolve_inside_iff_points :
    "gen/" ≠ "" ∧ suffix.toList.isSuffixOf "gen/".toList = false ∧
      (resolve (some "gen/") "..").Inside ⟨"gen/"⟩ "...json" ∧
      ∀ disk : Disk, disk.ChangesOnly
        (runProgram ["-o", "gen/"] ⟨Text.bytes "[\"..\"]", none⟩ disk).disk ⟨"gen/"⟩ "...json" := by
  have hname : '/' ∉ "..".toList := by decide
  have hread : Schema.read (Text.bytes "[\"..\"]") = .ok ⟨"..", []⟩ := by decide +kernel
  have hgiven : Schema.ofStream ⟨Text.bytes "[\"..\"]", none⟩ = .ok ⟨"..", []⟩ := by
    rw [Schema.ofStream, hread]
    rfl
  obtain ⟨hinside, hruns⟩ := @resolve_inside_iff "gen/" (by decide) (by decide) ".."
  exact ⟨by decide, by decide, hinside.2 hname, hruns hname rfl rfl hgiven rfl⟩

/-- The name of a schema can lead out of the directory again, to a file that is already there. -/
theorem Target.resolve_not_inside :
    ¬ (resolve (some "gen") "../x").Inside ⟨"gen"⟩ "../x.json" ∧
      resolve (some "gen") "../x" = .file ⟨"gen/../x.json"⟩ ∧
      Path.components ⟨"gen/../x.json"⟩ = [.name "gen", .up, .name "x.json"] ∧
      (writeFile ⟨[(["work"], .directory), (["x.json", "work"], .file "old")], ["work"]⟩
        ⟨"gen/../x.json"⟩ "new").2.at? ["x.json", "work"] = some (.file "new") := by
  refine ⟨?_, rfl, rfl, rfl⟩
  rintro ⟨p, hp, hcomponents⟩
  cases hp
  revert hcomponents
  decide

end InterfaceSchema
