import InterfaceSchema.Proofs.Runs

/-!
# What the log hides

Verbosity, base path and source are told in the log and reach nothing else: a run less its log is
the run of a command line that asks only where the document goes (`unlogged_runProgram`).

The log is made of records, each of which begins with its level (`Event.isLogLine_record`).  A
record is one line unless a name in it has a line break, since the names of schemas and unions are
told as they are; what else is told is quoted, which leaves no line break (`Text.oneLine_quoted`).
Where the names have none, the log can also be taken away line by line from what is on standard
error (`linesButLog_unlogged`).

* `runProgram_alike_but_log`: two runs that are told the same place to write to are the same but
  for their logs.
-/

namespace InterfaceSchema

open Files (Disk)

/-! ### Runs less their logs -/

/-- The notice is a record of the log, of debugging or of information. -/
def Notice.isLog : Notice → Bool
  | .log _ => true
  | .diagnostic _ | .usage _ | .failure _ => false

/-- Notices without the log. -/
def unlogged (notices : List Notice) : List Notice := notices.filter (!·.isLog)

def Plan.unlogged (p : Plan) : Plan := { p with notices := InterfaceSchema.unlogged p.notices }

def Outcome.unlogged (o : Outcome) : Outcome :=
  { o with stderr := InterfaceSchema.unlogged o.stderr }

theorem unlogged_append (ns ns' : List Notice) :
    unlogged (ns ++ ns') = unlogged ns ++ unlogged ns' := List.filter_append ..

/-- Of the log nothing is left. -/
theorem unlogged_log (c : CommandLine) (es : List Event) : unlogged (c.log es) = [] := by
  refine List.filter_eq_nil_iff.2 fun n hn => ?_
  obtain ⟨e, -, rfl⟩ := List.mem_map.1 hn
  exact Bool.false_ne_true

/-- Of diagnostics all is left. -/
theorem unlogged_diagnostics (ds : List Diagnostic) :
    unlogged (ds.map .diagnostic) = ds.map .diagnostic := by
  refine List.filter_eq_self.2 fun n hn => ?_
  obtain ⟨d, -, rfl⟩ := List.mem_map.1 hn
  rfl

theorem unlogged_failure (f : Failure) : unlogged [.failure f] = [.failure f] := rfl

/-- No event is told at another level than these two. -/
theorem Event.level_eq (e : Event) : e.level = .info ∨ e.level = .debug := by
  cases e with
  | converted => exact .inl rfl
  | _ => exact .inr rfl

/-- The command line that asks for no more than a place to write to. -/
def CommandLine.quiet (c : CommandLine) : CommandLine := { out := c.out }

/-- Nothing is told to the log unless it is asked for. -/
theorem CommandLine.log_quiet (c : CommandLine) (es : List Event) : c.quiet.log es = [] := by
  have hshown : es.filter (·.shownAt (Level.ofVerbosity 0)) = [] :=
    List.filter_eq_nil_iff.2 fun e _ => by
      rcases e.level_eq with he | he <;> simp [Event.shownAt, he, Level.rank, Level.ofVerbosity]
  rw [log, quiet, hshown, List.map_nil]

/-- **A plan less its log** is that of the quiet command line. -/
theorem Plan.unlogged_ofCommandLine (c : CommandLine) (input : Stream) :
    (ofCommandLine c input).unlogged = ofCommandLine c.quiet input := by
  cases hread : Schema.ofStream input with
  | error e =>
      simp only [ofCommandLine, hread, failed, Plan.unlogged, unlogged_append, unlogged_log,
        c.log_quiet, unlogged_failure]
  | ok s =>
      cases hconverted : Document.ofSchema s with
      | error e =>
          simp only [ofCommandLine, hread, hconverted, failed, Plan.unlogged, unlogged_append,
            unlogged_log, c.log_quiet, unlogged_failure]
      | ok d =>
          simp only [ofCommandLine, hread, hconverted, Plan.unlogged, unlogged_append,
            unlogged_log, c.log_quiet, unlogged_diagnostics]
          rfl

/-- What a plan leaves less its log is what the plan without a log leaves. -/
theorem Plan.unlogged_carryOut (p : Plan) (disk : Disk) :
    (p.carryOut disk).unlogged = p.unlogged.carryOut disk := by
  obtain ⟨succeeds, notices, delivery⟩ := p
  cases delivery with
  | nothing | print => rfl
  | save path text =>
      simp only [carryOut, Plan.unlogged]
      rcases writeFile disk path text with ⟨result, disk'⟩
      cases result with
      | ok => rfl
      | error e => simp only [Outcome.unlogged, unlogged_append]; rfl

/-- **A run less its log** is that of the quiet command line. -/
theorem unlogged_runProgram {args : List String} {c : CommandLine}
    (h : CommandLine.ofArguments args = .ok c) (input : Stream) (disk : Disk) :
    (runProgram args input disk).unlogged =
      (Plan.ofCommandLine c.quiet input).carryOut disk := by
  rw [runProgram_of_arguments h, Plan.unlogged_carryOut, Plan.unlogged_ofCommandLine]

/-! ### Lines -/

namespace Text

/-- Texts without a line break. -/
def OneLine (s : String) : Prop := '\n' ∉ s.toList

instance : DecidablePred OneLine := fun s => inferInstanceAs (Decidable ('\n' ∉ s.toList))

theorem OneLine.append {s t : String} (hs : OneLine s) (ht : OneLine t) : OneLine (s ++ t) := by
  rw [OneLine, String.toList_append]
  exact List.not_mem_append hs ht

/-- Digits of a number are no line ends. -/
theorem not_newLine_mem_toDigits {b n : Nat} (hb : 1 < b) (hb' : b ≤ 16) :
    '\n' ∉ Nat.toDigits b n := by
  have hdigit : ∀ d < 16, '\n' ≠ Nat.digitChar d := by decide
  induction n using Nat.strongRecOn with
  | ind n ih =>
      by_cases hsmall : n < b
      · rw [Nat.toDigits_of_lt_base hsmall, List.mem_singleton]
        exact hdigit n (Nat.lt_of_lt_of_le hsmall hb')
      · have hbase : b ≤ n := Nat.not_lt.1 hsmall
        rw [Nat.toDigits_of_base_le hb hbase]
        refine List.not_mem_append (ih _ (Nat.div_lt_self (by omega) hb)) ?_
        rw [List.mem_singleton]
        exact hdigit _ (Nat.lt_of_lt_of_le (Nat.mod_lt n (by omega)) hb')

theorem not_newLine_mem_quotedChar (c : Char) : '\n' ∉ quotedChar c := by
  unfold quotedChar
  split
  any_goals decide
  next hnewLine _ _ _ =>
    split
    · exact List.not_mem_append (List.not_mem_append (by decide)
        (not_newLine_mem_toDigits (by decide) (by decide))) (by decide)
    · rw [List.mem_singleton]
      exact fun h => hnewLine h.symm

/-- A text in quotation marks has one line, whatever it says. -/
theorem oneLine_quoted (s : String) : OneLine (quoted s) := by
  have hcontent : '\n' ∉ s.toList.flatMap quotedChar := by
    intro h
    obtain ⟨c, -, hc⟩ := List.mem_flatMap.1 h
    exact not_newLine_mem_quotedChar c hc
  rw [OneLine, quoted, String.toList_ofList]
  exact List.not_mem_append (List.not_mem_cons_of_ne_of_not_mem (by decide) hcontent) (by decide)

/-- Texts of one line make one line if what is between them has one. -/
theorem oneLine_intercalate {separator : String} (hseparator : OneLine separator)
    {ss : List String} (h : ∀ s ∈ ss, OneLine s) : OneLine (separator.intercalate ss) := by
  induction ss with
  | nil => exact List.not_mem_nil
  | cons s ss ih =>
      obtain ⟨hs, hss⟩ := List.forall_mem_cons.1 h
      cases ss with
      | nil => rwa [String.intercalate_singleton]
      | cons t ss =>
          rw [String.intercalate_cons_cons]
          exact (hs.append hseparator).append (ih hss)

theorem oneLine_quotedList (ss : List String) : OneLine (quotedList ss) := by
  have hquoted : ∀ s ∈ ss.map quoted, OneLine s := by
    intro s hs
    obtain ⟨s, -, rfl⟩ := List.mem_map.1 hs
    exact oneLine_quoted s
  have hbetween : OneLine (", ".intercalate (ss.map quoted)) :=
    oneLine_intercalate (by decide) hquoted
  have hopening : OneLine "[" := by decide
  exact (hopening.append hbetween).append (by decide)

theorem oneLine_toString (n : Nat) : OneLine (toString n) := by
  rw [OneLine, Nat.toString_eq_repr, Nat.toList_repr]
  exact not_newLine_mem_toDigits (by decide) (by decide)

end Text

/-- What the names in an event must be for its record to be one line. -/
def Event.NamesOneLine : Event → Prop
  | .unionSkipped name _ | .converted name _ => Text.OneLine name
  | .sourceIgnored _ | .basePathAccepted _ | .nothingDefined _ | .writing _ _ => True

/-- Where to write is told in one line: a path stands in quotation marks. -/
theorem Target.oneLine_text (t : Target) : Text.OneLine t.text := by
  cases t with
  | stdout => decide
  | file p =>
      have hopening : Text.OneLine "File(" := by decide
      exact (hopening.append (Text.oneLine_quoted p.text)).append (by decide)

/-- **What is told of an event is one line**, its names aside. -/
theorem Event.oneLine_text {e : Event} (h : e.NamesOneLine) : Text.OneLine e.text := by
  cases e with
  | sourceIgnored source =>
      exact Text.OneLine.append (by decide) (Text.oneLine_quoted source)
  | basePathAccepted basePath =>
      exact Text.OneLine.append (by decide) (Text.oneLine_quoted basePath)
  | nothingDefined name =>
      exact Text.OneLine.append (by decide) (Text.oneLine_quoted name)
  | unionSkipped name variants =>
      exact ((Text.OneLine.append (by decide) h).append (by decide)).append
        (Text.oneLine_quotedList variants)
  | converted schema types =>
      exact ((Text.OneLine.append (by decide) h).append (by decide)).append
        (Text.oneLine_toString types)
  | writing target octets =>
      exact ((Text.OneLine.append (by decide) target.oneLine_text).append (by decide)).append
        (Text.oneLine_toString octets)

/-- A line that begins with a level of the log. -/
def isLogLine (line : List Char) : Bool :=
  "DEBUG ".toList.isPrefixOf line || "INFO ".toList.isPrefixOf line

/-- The lines of a text but those that begin with a level of the log. -/
def linesButLog (text : String) : List (List Char) :=
  (text.toList.splitOn '\n').filter (!isLogLine ·)

/-- Lines are told from those of the log one by one. -/
theorem linesButLog_append (a b : String) :
    linesButLog (a ++ "\n" ++ b) = linesButLog a ++ linesButLog b := by
  simp [linesButLog, List.splitOn_append_cons_self]

/-- Every record begins with its level, whatever it tells. -/
theorem Event.isLogLine_record (e : Event) (told : String) :
    isLogLine (e.level.text ++ " " ++ told).toList = true := by
  rcases e.level_eq with he | he <;> simp [he, Level.text, isLogLine]

/-- Of the record of an event nothing is left. -/
theorem linesButLog_record {e : Event} (h : e.NamesOneLine) :
    linesButLog (e.level.text ++ " " ++ e.text) = [] := by
  have hlevel : Text.OneLine (e.level.text ++ " ") := by
    rcases e.level_eq with he | he <;> rw [he] <;> decide
  have hline := hlevel.append (Event.oneLine_text h)
  refine List.filter_eq_nil_iff.2 fun line hmem => ?_
  rw [List.splitOn_eq_singleton hline, List.mem_singleton] at hmem
  rw [hmem, e.isLogLine_record]
  exact Bool.false_ne_true

/-- A notice that ends its last line; if it is a record of the log, it is one line. -/
def Notice.Ended (n : Notice) : Prop :=
  ∃ body, n.text = body ++ "\n" ∧ (n.isLog = true → linesButLog body = [])

/-- **The log can be taken away line by line**, as no line begins in one notice and ends in
another. -/
theorem linesButLog_unlogged {ns : List Notice} (h : ∀ n ∈ ns, n.Ended) :
    linesButLog (String.join ((unlogged ns).map (·.text))) =
      linesButLog (String.join (ns.map (·.text))) := by
  induction ns with
  | nil => rfl
  | cons n ns ih =>
      obtain ⟨⟨body, hbody, hlog⟩, hns⟩ := List.forall_mem_cons.1 h
      rw [List.map_cons, String.join_cons, hbody, linesButLog_append, ← ih hns]
      cases hn : n.isLog with
      | true =>
          -- a record goes with its notice on one side, and as a line of its own on the other
          rw [hlog hn, List.nil_append, unlogged, List.filter_cons_of_neg (by simp [hn])]
          rfl
      | false =>
          rw [unlogged, List.filter_cons_of_pos (by simp [hn]), List.map_cons, String.join_cons,
            hbody, linesButLog_append]
          rfl

/-! ### What a run tells -/

/-- A union has a name without a line break. -/
def TypeDef.NamesOneLine (t : TypeDef) : Prop :=
  ∀ variants, t.form = .union variants → Text.OneLine t.name

/-- The names of a schema that are told as they are, those of the schema and of its unions, have no
line break. -/
structure Schema.NamesOneLine (s : Schema) : Prop where
  name : Text.OneLine s.name
  types : ∀ t ∈ s.types, t.NamesOneLine

theorem TypeDef.namesOneLine_events {t : TypeDef} {definition : Option Draft.Definition} {e : Event}
    (h : t.NamesOneLine) (he : e ∈ t.events definition) : e.NamesOneLine := by
  rcases List.mem_append.1 he with hunion | hnothing
  · split at hunion
    · next variants hform =>
        cases List.mem_singleton.1 hunion
        exact h variants hform
    · cases hunion
  · split at hnothing
    · cases List.mem_singleton.1 hnothing
      trivial
    · cases hnothing

/-- Events of declarations have names of one line if the declarations do. -/
theorem Registry.namesOneLine_events {reg : Registry} {ts : List TypeDef} {e : Event}
    (h : ∀ t ∈ ts, t.NamesOneLine) (he : e ∈ reg.events ts) : e.NamesOneLine := by
  induction ts with
  | nil => cases he
  | cons t ts ih =>
      obtain ⟨ht, hts⟩ := List.forall_mem_cons.1 h
      rw [events] at he
      split at he
      · cases he
      · rcases List.mem_append.1 he with hhere | hthere
        · exact t.namesOneLine_events ht hhere
        · exact ih hts hthere

/-- Notices that all end their last lines. -/
def Ended (ns : List Notice) : Prop := ∀ n ∈ ns, n.Ended

namespace Ended

/-- Notices that all end their lines make up lines together. -/
theorem append {ns ns' : List Notice} (h : Ended ns) (h' : Ended ns') : Ended (ns ++ ns') :=
  List.forall_mem_append.2 ⟨h, h'⟩

theorem log {c : CommandLine} {es : List Event} (h : ∀ e ∈ es, e.NamesOneLine) :
    Ended (c.log es) := by
  intro n hn
  obtain ⟨e, he, rfl⟩ := List.mem_map.1 hn
  exact ⟨_, rfl, fun _ => linesButLog_record (h e (List.mem_filter.1 he).1)⟩

theorem failure (f : Failure) : Ended [.failure f] := by
  intro n hn
  cases List.mem_singleton.1 hn
  exact ⟨_, rfl, fun hlog => absurd hlog Bool.false_ne_true⟩

theorem diagnostics (ds : List Diagnostic) : Ended (ds.map .diagnostic) := by
  intro n hn
  obtain ⟨d, -, rfl⟩ := List.mem_map.1 hn
  exact ⟨_, rfl, fun hlog => absurd hlog Bool.false_ne_true⟩

end Ended

/-- Every notice of a run ends its line. -/
theorem Plan.ended_notices {input : Stream}
    (h : ∀ s, Schema.ofStream input = .ok s → s.NamesOneLine) (c : CommandLine) :
    Ended (ofCommandLine c input).notices := by
  have hsource : Ended (c.log (c.source.toList.map .sourceIgnored)) :=
    .log fun e he => by
      obtain ⟨_, -, rfl⟩ := List.mem_map.1 he
      trivial
  cases hread : Schema.ofStream input with
  | error e =>
      simp only [ofCommandLine, hread]
      exact hsource.append (.failure _)
  | ok s =>
      have hnames := h s hread
      have hconverting : Ended (c.log (c.source.toList.map .sourceIgnored) ++
          c.log (c.basePath.toList.map .basePathAccepted ++
            (Registry.ofSchema s).events s.types)) := by
        refine hsource.append (.log fun e he => ?_)
        rcases List.mem_append.1 he with hbasePath | htypes
        · obtain ⟨_, -, rfl⟩ := List.mem_map.1 hbasePath
          trivial
        · exact Registry.namesOneLine_events hnames.types htypes
      cases hconverted : Document.ofSchema s with
      | error e =>
          simp only [ofCommandLine, hread, hconverted]
          exact hconverting.append (.failure _)
      | ok d =>
          simp only [ofCommandLine, hread, hconverted]
          refine ((hconverting.append (.log ?_)).append (.diagnostics _)).append (.log ?_)
          · exact List.forall_mem_singleton.2 hnames.name
          · exact List.forall_mem_singleton.2 trivial

/-- So does a failure to write. -/
theorem Plan.ended_stderr {p : Plan} (h : Ended p.notices) (disk : Disk) :
    Ended (p.carryOut disk).stderr := by
  obtain ⟨succeeds, notices, delivery⟩ := p
  cases delivery with
  | nothing | print => exact h
  | save path text =>
      simp only [carryOut]
      rcases writeFile disk path text with ⟨result, disk'⟩
      cases result with
      | ok => exact h
      | error e => exact h.append (.failure _)

/-! ### Two runs -/

/-- Two outcomes that are the same but for their logs. -/
structure Outcome.AlikeButLog (o o' : Outcome) : Prop where
  exitCode : o.exitCode = o'.exitCode
  stdout : o.stdout = o'.stdout
  disk : o.disk = o'.disk
  stderrText : o.unlogged.stderrText = o'.unlogged.stderrText

/-- Two outcomes that agree less their logs are alike in all but these. -/
theorem Outcome.alikeButLog_of_unlogged {o o' : Outcome} (h : o.unlogged = o'.unlogged) :
    o.AlikeButLog o' where
  exitCode := (congrArg exitCode h :)
  stdout := (congrArg stdout h :)
  disk := (congrArg disk h :)
  stderrText := congrArg stderrText h

/-- **Two runs that are told the same place to write to are the same but for their logs.**  If no
name that is told as it is has a line break, the lines on standard error are the same as well but
for those that begin with a level of the log. -/
theorem runProgram_alike_but_log {args args' : List String} {c c' : CommandLine}
    (h : CommandLine.ofArguments args = .ok c) (h' : CommandLine.ofArguments args' = .ok c')
    (hout : c.out = c'.out) (input : Stream) (disk : Disk) :
    (runProgram args input disk).AlikeButLog (runProgram args' input disk) ∧
      ((∀ s, Schema.ofStream input = .ok s → s.NamesOneLine) →
        linesButLog (runProgram args input disk).stderrText =
          linesButLog (runProgram args' input disk).stderrText) := by
  have hquiet : c.quiet = c'.quiet := by rw [CommandLine.quiet, CommandLine.quiet, hout]
  have hsame : (runProgram args input disk).unlogged = (runProgram args' input disk).unlogged := by
    rw [unlogged_runProgram h, unlogged_runProgram h', hquiet]
  refine ⟨Outcome.alikeButLog_of_unlogged hsame, fun hnames => ?_⟩
  have hlines {args : List String} {c : CommandLine} (h : CommandLine.ofArguments args = .ok c) :
      linesButLog (runProgram args input disk).unlogged.stderrText =
        linesButLog (runProgram args input disk).stderrText := by
    rw [runProgram_of_arguments h]
    exact linesButLog_unlogged (Plan.ended_stderr (Plan.ended_notices hnames c) disk)
  rw [← hlines h, ← hlines h', hsame]

/-- A run that tells what it does, and one that does not. -/
theorem runProgram_alike_but_log_verbose :
    CommandLine.ofArguments ["-v", "-b", "/api", "-o", "out"] =
        .ok { out := "out", basePath := "/api", verbosity := 1 } ∧
      CommandLine.ofArguments ["-o", "out"] = .ok { out := "out" } ∧
      (runProgram ["-v", "-b", "/api", "-o", "out"] ⟨Text.bytes "[]", none⟩
        (.blank "work")).stderrText = "INFO translated schema schema= types=0\n" ∧
      (runProgram ["-v", "-b", "/api", "-o", "out"] ⟨Text.bytes "[]", none⟩
        (.blank "work")).AlikeButLog
          (runProgram ["-o", "out"] ⟨Text.bytes "[]", none⟩ (.blank "work")) ∧
      linesButLog (runProgram ["-v", "-b", "/api", "-o", "out"] ⟨Text.bytes "[]", none⟩
          (.blank "work")).stderrText =
        linesButLog
          (runProgram ["-o", "out"] ⟨Text.bytes "[]", none⟩ (.blank "work")).stderrText := by
  have hnames : ∀ s, Schema.ofStream ⟨Text.bytes "[]", none⟩ = .ok s → s.NamesOneLine := by
    intro s hs
    cases (show Schema.ofStream ⟨Text.bytes "[]", none⟩ = .ok ⟨"", []⟩ from rfl).symm.trans hs
    exact ⟨by decide, fun _ ht => by cases ht⟩
  have htelling : CommandLine.ofArguments ["-v", "-b", "/api", "-o", "out"] =
      .ok { out := "out", basePath := "/api", verbosity := 1 } := rfl
  have hsilent : CommandLine.ofArguments ["-o", "out"] = .ok { out := "out" } := rfl
  obtain ⟨halike, hlines⟩ :=
    runProgram_alike_but_log htelling hsilent rfl ⟨Text.bytes "[]", none⟩ (.blank "work")
  exact ⟨htelling, hsilent, rfl, halike, hlines hnames⟩

end InterfaceSchema
