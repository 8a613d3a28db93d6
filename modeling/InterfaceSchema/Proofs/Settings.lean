import Mathlib.Data.List.Induction
import InterfaceSchema.CommandLine

/-!
# Settings on the command line

Arguments that each say one thing by themselves: a value option with its value behind an equals
sign, or one more step of verbosity.  Such an argument leaves nothing to be settled, so the scan
records it where it stands.  What the scan knows after some settings can be told from these alone
(`Scan.Recorded`), and so can whether it takes the next one (`Faulty`).

* `Scan.Recorded.take`, `Scan.Recorded.take_of_faulty`: one setting more.
* `ofArguments_eq_ok_iff`, `ofArguments_eq_error_iff`: settings are taken when each option has one
  value and the place to write to is not empty; otherwise the first setting that breaks this is
  told.
* `ofArguments_settings`: so settings come out as they were put in, in any order, and an option
  that is given twice is refused, unless an empty place to write to is refused before.
-/

namespace InterfaceSchema
namespace CommandLine

/-- What one argument can say by itself. -/
inductive Setting where
  | value (o : ValueOption) (text : String)
  /-- One more step of verbosity. -/
  | louder
deriving DecidableEq

/-- The argument that says it. -/
def Setting.argument : Setting → String
  | .value .out v      => "-o=" ++ v
  | .value .basePath v => "-b=" ++ v
  | .value .source v   => "-s=" ++ v
  | .louder            => "-v"

/-- The value that a setting gives to an option. -/
def Setting.value? (o : ValueOption) : Setting → Option String
  | .value p v => if p = o then some v else none
  | .louder    => none

/-- The values that settings give to an option, in order. -/
def valuesOf (o : ValueOption) (settings : List Setting) : List String :=
  settings.filterMap (·.value? o)

/-- What settings ask for: each option has the value that it was given last. -/
def ofSettings (settings : List Setting) : CommandLine where
  out := (valuesOf .out settings).getLast?
  basePath := (valuesOf .basePath settings).getLast?
  source := (valuesOf .source settings).getLast?
  verbosity := min maxVerbosity (settings.count .louder)

section
variable {o p : ValueOption} {v : String} {settings before after : List Setting}

@[simp] theorem valuesOf_nil (o : ValueOption) : valuesOf o [] = [] := rfl

theorem valuesOf_append (o : ValueOption) (before after : List Setting) :
    valuesOf o (before ++ after) = valuesOf o before ++ valuesOf o after :=
  List.filterMap_append

theorem valuesOf_cons_value :
    valuesOf o (.value p v :: after) = if p = o then v :: valuesOf o after else valuesOf o after := by
  by_cases h : p = o <;> simp [valuesOf, Setting.value?, h]

@[simp] theorem valuesOf_concat_value :
    valuesOf o (before ++ [.value p v]) = valuesOf o before ++ if p = o then [v] else [] := by
  rw [valuesOf_append, valuesOf_cons_value]
  rfl

@[simp] theorem valuesOf_concat_louder : valuesOf o (before ++ [.louder]) = valuesOf o before := by
  simp [valuesOf, Setting.value?]

/-- One more value is what the option is set to. -/
theorem ofSettings_concat_value :
    ofSettings (before ++ [.value o v]) = (ofSettings before).set o v := by
  cases o <;> simp [ofSettings, set]

theorem ofSettings_concat_louder :
    ofSettings (before ++ [.louder]) =
      { ofSettings before with
        verbosity := min maxVerbosity ((ofSettings before).verbosity + 1) } := by
  have hstep (n : Nat) : min maxVerbosity (n + 1) = min maxVerbosity (min maxVerbosity n + 1) := by
    omega
  simp [ofSettings, ← hstep]

/-! ### What stands in the way of a setting -/

/-- What is wrong with a setting that comes after others. -/
inductive Faulty (before : List Setting) : Setting → UsageError → Prop where
  | repeated {o : ValueOption} {v : String} (h : valuesOf o before ≠ []) :
      Faulty before (.value o v) (.repeated o)
  | missingValue (h : valuesOf .out before = []) :
      Faulty before (.value .out "") (.missingValue .out)

/-- Nothing is wrong with any of the settings. -/
structure Accepted (settings : List Setting) : Prop where
  once : ∀ o, (valuesOf o settings).length ≤ 1
  place : "" ∉ valuesOf .out settings

/-- The first setting that something is wrong with, and what. -/
def FirstFault (settings : List Setting) (e : UsageError) : Prop :=
  ∃ before x after, settings = before ++ x :: after ∧ Accepted before ∧ Faulty before x e

/-- The place to write to is empty where it is first given, and no option is given twice before. -/
def EmptyPlaceFirst (settings : List Setting) : Prop :=
  ∃ before after, settings = before ++ .value .out "" :: after ∧
    valuesOf .out before = [] ∧ ∀ o, (valuesOf o before).length ≤ 1

theorem accepted_nil : Accepted [] := ⟨fun _ => Nat.zero_le 1, List.not_mem_nil⟩

/-- If nothing is wrong with settings, nothing is with the first of them. -/
theorem Accepted.of_append (h : Accepted (before ++ after)) : Accepted before := by
  refine ⟨fun o => ?_, fun hmem => h.place ?_⟩
  · have hlength := h.once o
    rw [valuesOf_append, List.length_append] at hlength
    omega
  · rw [valuesOf_append]
    exact List.mem_append_left _ hmem

/-- Nothing is wrong with a first value, unless it is an empty place to write to. -/
theorem not_faulty_value_iff :
    (∀ e, ¬ Faulty before (.value o v) e) ↔ valuesOf o before = [] ∧ ¬ (o = .out ∧ v = "") := by
  constructor
  · intro hfine
    have hnil : valuesOf o before = [] := by
      by_contra hne
      exact hfine _ (.repeated hne)
    refine ⟨hnil, ?_⟩
    rintro ⟨rfl, rfl⟩
    exact hfine _ (.missingValue hnil)
  · rintro ⟨hnil, hplace⟩ e (hne | _)
    · exact hne hnil
    · exact hplace ⟨rfl, rfl⟩

/-- **Settings are accepted one by one.** -/
theorem accepted_concat_iff {x : Setting} :
    Accepted (before ++ [x]) ↔ Accepted before ∧ ∀ e, ¬ Faulty before x e := by
  cases x with
  | louder =>
      constructor
      · intro h
        exact ⟨h.of_append, nofun⟩
      · rintro ⟨⟨honce, hplace⟩, -⟩
        exact ⟨by simpa using honce, by simpa using hplace⟩
  | value p v =>
      rw [not_faulty_value_iff]
      constructor
      · intro h
        refine ⟨h.of_append, ?_, ?_⟩
        · have hlength := h.once p
          rw [valuesOf_concat_value, if_pos rfl, List.length_append, List.length_singleton]
            at hlength
          exact List.eq_nil_of_length_eq_zero (by omega)
        · rintro ⟨rfl, rfl⟩
          exact h.place (by simp)
      · rintro ⟨⟨honce, hplace⟩, hnil, hv⟩
        refine ⟨fun o => ?_, ?_⟩
        · by_cases hpo : p = o
          · subst hpo
            simp [hnil]
          · simpa [hpo] using honce o
        · by_cases hp : p = .out
          · subst hp
            simpa [hnil, eq_comm] using hv
          · simpa [hp] using hplace

/-- Nothing is wrong with settings, or there is a first one that something is wrong with. -/
theorem accepted_or_firstFault (settings : List Setting) :
    Accepted settings ∨ ∃ e, FirstFault settings e := by
  induction settings using List.reverseRecOn with
  | nil => exact .inl accepted_nil
  | append_singleton before x ih =>
      rcases ih with hbefore | ⟨e, front, y, back, rfl, hfront, hy⟩
      · by_cases hx : ∃ e, Faulty before x e
        · obtain ⟨e, he⟩ := hx
          exact .inr ⟨e, before, x, [], rfl, hbefore, he⟩
        · exact .inl (accepted_concat_iff.2 ⟨hbefore, not_exists.1 hx⟩)
      · exact .inr ⟨e, front, y, back ++ [x], by simp, hfront, hy⟩

/-- Settings of which two give one option are not all accepted. -/
theorem not_accepted_of_twice {between : List Setting} {w : String} :
    ¬ Accepted (before ++ .value o v :: between ++ .value o w :: after) := by
  intro h
  have honce := h.once o
  simp only [valuesOf_append, valuesOf_cons_value, if_pos, List.length_append,
    List.length_cons] at honce
  omega

/-- An empty place to write to that comes first is the first fault. -/
theorem EmptyPlaceFirst.firstFault (h : EmptyPlaceFirst settings) :
    FirstFault settings (.missingValue .out) := by
  obtain ⟨before, after, rfl, hnil, honce⟩ := h
  have hplace : "" ∉ valuesOf .out before := by simp [hnil]
  exact ⟨before, _, after, rfl, ⟨honce, hplace⟩, .missingValue hnil⟩

end

/-! ### The scan -/

/-- A setting of a value is a dash, the letter of the option, an equals sign and the value. -/
theorem Setting.toList_argument_value (o : ValueOption) (v : String) :
    ∃ c, Switch.ofLetter? c = some (.value o) ∧ c ≠ '-' ∧
      (Setting.value o v).argument.toList = '-' :: c :: '=' :: v.toList := by
  cases o with
  | out => exact ⟨'o', rfl, by decide, String.toList_append⟩
  | basePath => exact ⟨'b', rfl, by decide, String.toList_append⟩
  | source => exact ⟨'s', rfl, by decide, String.toList_append⟩

namespace Scan
variable {s : Scan} {before : List Setting}

/-- What a setting does to the scan. -/
def take (s : Scan) : Setting → Except UsageError Scan
  | .value o v => s.record o v
  | .louder    => s.plain .verbose

theorem settle_of_not_pending (h : s.pending = none) : s.settle = .ok s := by
  rw [settle, h]

/-- An argument with one dash before it is read letter by letter. -/
theorem arguments_letters {arg : String} {c : Char} {cs : List Char}
    (harg : arg.toList = '-' :: c :: cs) (hc : c ≠ '-') (args : List String) :
    s.arguments (arg :: args) = (s.letters (c :: cs)).bind (·.arguments args) := by
  rw [arguments.eq_def]
  simp only [harg]
  -- the rows for two dashes and for words do not match
  split
  · simp_all
  · simp_all
  · next heq => cases heq; rfl
  · simp_all

/-- The letter of an option with an equals sign behind it records the rest as its value. -/
theorem letters_value (h : s.pending = none) {o : ValueOption} {c : Char}
    (hc : Switch.ofLetter? c = some (.value o)) (v : String) :
    s.letters (c :: '=' :: v.toList) = s.record o v := by
  rw [letters, hc]
  simp only [settle_of_not_pending h, String.ofList_toList]
  rfl

/-- A step of verbosity takes no value. -/
theorem letters_verbose (s : Scan) : s.letters ['v'] = s.plain .verbose := by
  show (s.plain .verbose).bind .ok = s.plain .verbose
  cases s.plain .verbose <;> rfl

/-- **A setting has its whole effect where it stands.** -/
theorem arguments_argument (h : s.pending = none) (x : Setting) (args : List String) :
    s.arguments (x.argument :: args) = (s.take x).bind (·.arguments args) := by
  cases x with
  | louder =>
      have hchars : Setting.louder.argument.toList = ['-', 'v'] := rfl
      rw [arguments_letters hchars (by decide), letters_verbose, take]
  | value o v =>
      obtain ⟨c, hletter, hdash, hchars⟩ := Setting.toList_argument_value o v
      rw [arguments_letters hchars hdash, letters_value h hletter, take]

/-- What the scan knows after settings, and that nothing is left to be settled. -/
structure Recorded (s : Scan) (before : List Setting) : Prop where
  pending : s.pending = none
  command : s.command = ofSettings before
  used : ∀ o, .value o ∈ s.used ↔ valuesOf o before ≠ []

/-- At first nothing is known and nothing is left to be settled. -/
theorem recorded_start : Recorded {} [] := ⟨rfl, rfl, by simp⟩

/-- **The scan takes a setting that nothing is wrong with**, and knows it then. -/
theorem Recorded.take (h : s.Recorded before) {x : Setting} (hx : ∀ e, ¬ Faulty before x e) :
    ∃ s', s.take x = .ok s' ∧ s'.Recorded (before ++ [x]) := by
  cases x with
  | louder =>
      have hplain : s.take .louder = .ok { s with
          command := { s.command with verbosity := min maxVerbosity (s.command.verbosity + 1) }
          used := s.used.erase .verbose ++ [.verbose] } := by
        rw [Scan.take, plain, settle_of_not_pending h.pending]
        rfl
      refine ⟨_, hplain, h.pending, ?_, fun o => ?_⟩
      · rw [ofSettings_concat_louder, h.command]
      · -- what is used moves its verbosity to the end, and keeps the value options
        simp [h.used, List.mem_erase_of_ne]
  | value o v =>
      obtain ⟨hnil, hplace⟩ := not_faulty_value_iff.1 hx
      have hnot : .value o ∉ s.used := fun hmem => (h.used o).1 hmem hnil
      refine ⟨{ s with command := s.command.set o v, used := s.used ++ [.value o] }, ?_,
        h.pending, ?_, fun p => ?_⟩
      · rw [Scan.take, record, if_neg hnot, if_neg hplace]
      · rw [ofSettings_concat_value, h.command]
      · by_cases hop : o = p
        · simp [hop]
        · simp [hop, h.used, Ne.symm hop]

/-- **A setting that something is wrong with ends the scan.** -/
theorem Recorded.take_of_faulty (h : s.Recorded before) {x : Setting} {e : UsageError}
    (hx : Faulty before x e) : s.take x = .error e := by
  cases hx with
  | repeated hne => rw [Scan.take, record, if_pos ((h.used _).2 hne)]
  | missingValue hnil =>
      have hnot : .value .out ∉ s.used := fun hmem => (h.used _).1 hmem hnil
      rw [Scan.take, record, if_neg hnot, if_pos ⟨rfl, rfl⟩]

/-- **Settings that nothing is wrong with are passed**, whatever comes after them. -/
theorem Recorded.arguments_append (h : s.Recorded before) {later : List Setting}
    (hlater : Accepted (before ++ later)) (args : List String) :
    ∃ s' : Scan, s'.Recorded (before ++ later) ∧
      s.arguments (later.map Setting.argument ++ args) = s'.arguments args := by
  -- what is behind the scan grows by each setting, so the scan and `before` vary
  induction later generalizing s before with
  | nil => exact ⟨s, by simpa using h, rfl⟩
  | cons x later ih =>
      rw [List.append_cons] at hlater ⊢
      obtain ⟨next, hnext, hrecorded⟩ := h.take (accepted_concat_iff.1 hlater.of_append).2
      obtain ⟨s', hs', heq⟩ := ih hrecorded hlater
      refine ⟨s', hs', ?_⟩
      rw [List.map_cons, List.cons_append, arguments_argument h.pending, hnext, ← heq]
      rfl

end Scan

/-! ### All settings -/

section
variable {settings : List Setting}

/-- Settings that nothing is wrong with are taken. -/
theorem ofArguments_of_accepted (h : Accepted settings) :
    ofArguments (settings.map Setting.argument) = .ok (ofSettings settings) := by
  obtain ⟨s, hs, heq⟩ := Scan.recorded_start.arguments_append h []
  rw [List.append_nil] at heq
  rw [ofArguments, heq, Scan.arguments, Scan.settle_of_not_pending hs.pending]
  exact congrArg Except.ok hs.command

/-- The first that something is wrong with is told. -/
theorem ofArguments_of_firstFault {e : UsageError} (h : FirstFault settings e) :
    ofArguments (settings.map Setting.argument) = .error e := by
  obtain ⟨before, x, after, rfl, hbefore, hx⟩ := h
  obtain ⟨s, hs, heq⟩ :=
    Scan.recorded_start.arguments_append hbefore ((x :: after).map Setting.argument)
  rw [ofArguments, List.map_append, heq, List.map_cons, Scan.arguments_argument hs.pending,
    hs.take_of_faulty hx]
  rfl

/-- **Settings are taken when each option has one value and the place to write to is not empty**,
and then say what the run is to be. -/
theorem ofArguments_eq_ok_iff {c : CommandLine} :
    ofArguments (settings.map Setting.argument) = .ok c ↔
      Accepted settings ∧ c = ofSettings settings := by
  constructor
  · intro h
    rcases accepted_or_firstFault settings with haccepted | ⟨e, he⟩
    · rw [ofArguments_of_accepted haccepted] at h
      exact ⟨haccepted, (Except.ok.inj h).symm⟩
    · rw [ofArguments_of_firstFault he] at h
      cases h
  · rintro ⟨h, rfl⟩
    exact ofArguments_of_accepted h

/-- **Otherwise the first setting that something is wrong with is told.** -/
theorem ofArguments_eq_error_iff {e : UsageError} :
    ofArguments (settings.map Setting.argument) = .error e ↔ FirstFault settings e := by
  constructor
  · intro h
    rcases accepted_or_firstFault settings with haccepted | ⟨e', he'⟩
    · rw [ofArguments_of_accepted haccepted] at h
      cases h
    · rw [ofArguments_of_firstFault he'] at h
      cases h
      exact he'
  · exact ofArguments_of_firstFault

end

/-! ### Settings in any order -/

/-- The settings that ask for given values, each said once, and for so many steps of verbosity. -/
def settingsFor (out basePath source : Option String) (n : Nat) : List Setting :=
  out.toList.map (.value .out) ++ basePath.toList.map (.value .basePath) ++
    source.toList.map (.value .source) ++ List.replicate n .louder

section
variable {out basePath source : Option String} {n : Nat} {settings : List Setting}

theorem valuesOf_map_value (o p : ValueOption) (vs : List String) :
    valuesOf o (vs.map (.value p)) = if p = o then vs else [] := by
  induction vs with
  | nil => simp
  | cons v vs ih =>
      rw [List.map_cons, valuesOf_cons_value, ih]
      split <;> rfl

theorem count_louder_map_value (p : ValueOption) (vs : List String) :
    (vs.map (Setting.value p)).count .louder = 0 := by
  rw [List.count_eq_zero, List.mem_map]
  rintro ⟨v, -, hv⟩
  cases hv

theorem valuesOf_replicate_louder (o : ValueOption) (n : Nat) :
    valuesOf o (List.replicate n .louder) = [] := by
  simp [valuesOf, Setting.value?]

/-- An option has the value that it was to have. -/
theorem valuesOf_of_perm (h : settings.Perm (settingsFor out basePath source n)) :
    valuesOf .out settings = out.toList ∧ valuesOf .basePath settings = basePath.toList ∧
      valuesOf .source settings = source.toList := by
  have hvalues (o : ValueOption) (v : Option String)
      (hv : valuesOf o (settingsFor out basePath source n) = v.toList) :
      valuesOf o settings = v.toList := by
    have hperm : (valuesOf o settings).Perm v.toList := hv ▸ h.filterMap _
    cases v with
    | none => exact hperm.eq_nil
    | some w => exact List.perm_singleton.1 hperm
  refine ⟨hvalues .out out ?_, hvalues .basePath basePath ?_, hvalues .source source ?_⟩ <;>
    simp [settingsFor, valuesOf_append, valuesOf_map_value, valuesOf_replicate_louder]

/-- In any order, settings that each say another thing are accepted. -/
theorem accepted_of_perm (h : settings.Perm (settingsFor out basePath source n))
    (hout : out ≠ some "") : Accepted settings := by
  obtain ⟨hvalues, hbasePath, hsource⟩ := valuesOf_of_perm h
  refine ⟨fun o => ?_, ?_⟩
  · cases o with
    | out => rw [hvalues]; exact out.length_toList_le
    | basePath => rw [hbasePath]; exact basePath.length_toList_le
    | source => rw [hsource]; exact source.length_toList_le
  · simpa [hvalues] using hout

/-- And they ask for what they were to ask for. -/
theorem ofSettings_of_perm (h : settings.Perm (settingsFor out basePath source n)) :
    ofSettings settings = ⟨out, basePath, source, min n maxVerbosity⟩ := by
  obtain ⟨hvalues, hbasePath, hsource⟩ := valuesOf_of_perm h
  have hcount : settings.count .louder = n := by
    rw [h.count_eq]
    simp [settingsFor, count_louder_map_value]
  have hlast (v : Option String) : v.toList.getLast? = v := by cases v <;> rfl
  rw [ofSettings, hvalues, hbasePath, hsource, hcount, hlast, hlast, hlast, Nat.min_comm]

/-- **Settings come out as they were put in, in any order**, with as much verbosity as there is.
Where an option is given a second time, at any place and with any values, the first option that is
given again is told.  Only an empty place to write to is told instead, if it comes before anything
is given again. -/
theorem ofArguments_settings :
    (∀ (out basePath source : Option String) (n : Nat) (settings : List Setting),
      out ≠ some "" → settings.Perm (settingsFor out basePath source n) →
      ofArguments (settings.map Setting.argument) = .ok ⟨out, basePath, source, min n 255⟩) ∧
    ∀ (o : ValueOption) (v w : String) (before between after : List Setting),
      let settings := before ++ .value o v :: between ++ .value o w :: after
      (¬ EmptyPlaceFirst settings →
        ∃ front p u back, settings = front ++ .value p u :: back ∧ Accepted front ∧
          valuesOf p front ≠ [] ∧
          ofArguments (settings.map Setting.argument) = .error (.repeated p)) ∧
      (EmptyPlaceFirst settings →
        ofArguments (settings.map Setting.argument) = .error (.missingValue .out)) := by
  constructor
  · intro out basePath source n settings hout hperm
    exact ofArguments_eq_ok_iff.2 ⟨accepted_of_perm hperm hout, (ofSettings_of_perm hperm).symm⟩
  · intro o v w before between after settings
    constructor
    · intro hplace
      -- something is wrong, and it is not an empty place to write to
      obtain ⟨e, he⟩ := (accepted_or_firstFault settings).resolve_left not_accepted_of_twice
      have herror := ofArguments_eq_error_iff.2 he
      obtain ⟨front, x, back, hsettings, hfront, hx⟩ := he
      cases hx with
      | repeated hne => exact ⟨front, _, _, back, hsettings, hfront, hne, herror⟩
      | missingValue hnil =>
          exact absurd ⟨front, back, hsettings, hnil, hfront.once⟩ hplace
    · intro hplace
      exact ofArguments_eq_error_iff.2 hplace.firstFault

/-- Values that look like an option, begin with an equals sign or are empty, between two steps of
verbosity; an option that is given twice before an empty place to write to, and another after
one. -/
theorem ofArguments_settings_flaglike :
    let settings : List Setting :=
      [.louder, .value .source "", .value .out "-v", .louder, .value .basePath "=x"]
    let again : List Setting := [.louder] ++ .value .basePath "" :: [.value .source "x"] ++
      .value .basePath "" :: [.value .out ""]
    let late : List Setting := [.louder] ++ .value .basePath "1" :: [.value .out ""] ++
      .value .basePath "2" :: []
    settings.Perm (settingsFor (some "-v") (some "=x") (some "") 2) ∧
      settings.map Setting.argument = ["-v", "-s=", "-o=-v", "-v", "-b==x"] ∧
      ofArguments (settings.map Setting.argument) = .ok ⟨some "-v", some "=x", some "", 2⟩ ∧
      again.map Setting.argument = ["-v", "-b=", "-s=x", "-b=", "-o="] ∧
      (∃ p, ofArguments (again.map Setting.argument) = .error (.repeated p)) ∧
      late.map Setting.argument = ["-v", "-b=1", "-o=", "-b=2"] ∧
      ofArguments (late.map Setting.argument) = .error (.missingValue .out) := by
  intro settings again late
  have hperm : settings.Perm (settingsFor (some "-v") (some "=x") (some "") 2) := by decide
  have hagain : ¬ EmptyPlaceFirst again := by
    -- all but the last setting stand before the empty place
    rintro ⟨before, after, hsplit, -, honce⟩
    have hbefore : before =
        [.louder, .value .basePath "", .value .source "x", .value .basePath ""] ∧ after = [] := by
      simpa [again, List.cons_eq_append_iff] using hsplit
    obtain ⟨rfl, -⟩ := hbefore
    exact absurd (honce .basePath) (by decide)
  have hlate : EmptyPlaceFirst late :=
    ⟨[.louder, .value .basePath "1"], _, rfl, rfl, fun o => by cases o <;> decide⟩
  obtain ⟨-, p, -, -, -, -, -, hconflict⟩ := (ofArguments_settings.2 .basePath "" "" [.louder]
    [.value .source "x"] [.value .out ""]).1 hagain
  exact ⟨hperm, rfl, ofArguments_settings.1 _ _ _ 2 settings (by decide) hperm, rfl, ⟨p, hconflict⟩,
    rfl, (ofArguments_settings.2 .basePath "1" "2" [.louder] [.value .out ""] []).2 hlate⟩

/-- A place to write to that is given twice, but is empty at first, is told for that alone. -/
theorem ofArguments_empty_place_twice :
    let settings : List Setting := [.value .out "", .value .out "x"]
    settings.map Setting.argument = ["-o=", "-o=x"] ∧
      ∀ p, ofArguments (settings.map Setting.argument) ≠ .error (.repeated p) := by
  refine ⟨rfl, fun p hconflict => ?_⟩
  have hplace : ofArguments ["-o=", "-o=x"] = .error (.missingValue .out) := rfl
  cases hplace.symm.trans hconflict

end

end CommandLine
end InterfaceSchema
