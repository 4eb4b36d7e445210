import DiagnosticReport.CommandLine.Run
import DiagnosticReport.Proofs.Files.Tree
import DiagnosticReport.Proofs.Recorder.ReplayedLog

/-!
# What commands leave behind

A command that makes a report reads the settings and the log, and only then writes the document;
nothing that could fail comes after that. So a command that fails has changed nothing, provided
that to read a file changes nothing and to fail to write one does not either, which is all that is
asked of the files here (`FileAccess.Careful`).

* `CommandLine.Made` and `CommandLine.Reported` list what can come of making a report and of the
  command for it; `CommandLine.made_makeReport` and `CommandLine.reported_runReport` say that
  nothing else can.
* `CommandLine.exists_replay` : a replay for a command succeeds.
* `CommandLine.run_effects` : **a command that fails leaves nothing behind**, on a tree of files.
-/

namespace DiagnosticReport

namespace CommandLine

section Careful

variable {σ : Type} {files : FileAccess (StateM σ)}

theorem run_bind {α β : Type} (x : StateM σ α) (f : α → StateM σ β) (s : σ) :
    (x >>= f).run s = (f (x.run s).1).run (x.run s).2 := rfl

/-- **To load settings** changes nothing. -/
theorem loadSettings_snd (h : files.Careful) (named : Option String) (s : σ) :
    ((loadSettings files named).run s).2 = s := by
  cases named with
  | some path => exact h.read path s
  | none =>
    rw [loadSettings, run_bind, h.read]
    cases ((files.read settingsPath).run s).1 with
    | error error => rfl
    | ok contents => rfl

/-- What can come of making a report. -/
inductive Made (files : FileAccess (StateM σ)) (plan : ReportPlan) (s : σ) :
    Except RunError Replay × σ → Prop where
  /-- Something failed, and nothing was changed. -/
  | failed (error : RunError) : Made files plan s (.error error, s)
  /-- There was no document to write. -/
  | unwritten (replay : Replay) (output : plan.output = none) : Made files plan s (.ok replay, s)
  /-- The document was written. -/
  | written {path : String} {s' : σ} (replay : Replay) (output : plan.output = some path)
      (write : (files.write path replay.document).run s = (.ok (), s')) :
      Made files plan s (.ok replay, s')

/-- **To make a report** changes nothing, or it succeeds and has written the document. -/
theorem made_makeReport (h : files.Careful) (plan : ReportPlan) (log : String) (s : σ) :
    Made files plan s ((makeReport files plan log).run s) := by
  rw [makeReport, run_bind, h.read]
  cases textOf ((files.read log).run s).1 with
  | error error => exact .failed _
  | ok content =>
    dsimp only
    split
    next => exact .failed _
    next replay hreplay houtput => exact .unwritten replay houtput
    next replay path hreplay houtput =>
      -- the only step that can change anything is the last
      rw [run_bind]
      cases hresult : ((files.write path replay.document).run s).1 with
      | error error =>
        rw [h.write path replay.document s error hresult]
        exact .failed _
      | ok done => exact .written replay houtput (Prod.ext hresult rfl)

/-- What can come of the command that makes a report. -/
inductive Reported (files : FileAccess (StateM σ)) (common : CommonOptions)
    (arguments : ReportRequest) (s : σ) : Outcome × σ → Prop where
  /-- The command failed: it prints nothing and leaves everything as it was. -/
  | failed {outcome : Outcome} (code : outcome.code = 1) (stdout : outcome.stdout = "") :
      Reported files common arguments s (outcome, s)
  /-- The command succeeded, and the report is made as planned. -/
  | succeeded {outcome : Outcome} {s' : σ} {settings : Settings} {replay : Replay}
      (code : outcome.code = 0)
      (load : (loadSettings files common.config).run s = (.ok settings, s))
      (made : Made files (reportPlan arguments settings) s (.ok replay, s')) :
      Reported files common arguments s (outcome, s')

theorem reported_runReport (h : files.Careful) (common : CommonOptions)
    (arguments : ReportRequest) (told : String) (s : σ) :
    Reported files common arguments s ((runReport files common arguments told).run s) := by
  have hloaded := loadSettings_snd h common.config s
  rw [runReport, run_bind, hloaded]
  cases hsettings : ((loadSettings files common.config).run s).1 with
  | error error => exact .failed rfl rfl
  | ok settings =>
    have hload : (loadSettings files common.config).run s = (.ok settings, s) :=
      Prod.ext hsettings hloaded
    have hmade := made_makeReport h (reportPlan arguments settings) arguments.log s
    dsimp only
    rw [run_bind]
    generalize (makeReport files (reportPlan arguments settings) arguments.log).run s = made
      at hmade ⊢
    obtain ⟨result, s'⟩ := made
    cases result with
    | error error =>
      cases hmade
      exact .failed rfl rfl
    | ok replay => exact .succeeded rfl hload hmade

end Careful

theorem reliable_of_plan (plan : ReportPlan) :
    ∀ out ∈ plan.output.map fun _ => Output.flawless, out.Reliable := by
  intro out hout
  obtain ⟨path, -, rfl⟩ := Option.map_eq_some_iff.1 hout
  exact Output.reliable_flawless

/-- **A replay for a command always succeeds**, so it makes no difference whether the document is
opened before it or written after it. -/
theorem exists_replay (plan : ReportPlan) (content source : String) :
    ∃ done, replay plan content source = .ok done :=
  ⟨_, Replay.run_of_undisturbed
    (Recorder.undisturbed_start plan.metadata plan.recorder (reliable_of_plan plan))
    (Transcript.events content source)⟩

/-- What is no report asks nothing of the files. -/
theorem run_of_not_report {args : List String}
    (h : ∀ common arguments, parse args ≠ .ok ⟨common, .report arguments⟩) :
    ∃ outcome, (outcome.code ≠ 0 → outcome.stdout = "") ∧
      ∀ {m : Type → Type} [Monad m] (files : FileAccess m), run files args = pure outcome := by
  cases hparse : parse args with
  | error refusal =>
    refine ⟨refused refusal, ?_, fun files => by rw [run, hparse]⟩
    cases refusal with
    | version => exact fun hcode => absurd rfl hcode
    | usage => exact fun _ => rfl
  | ok invocation =>
    obtain ⟨common, command⟩ := invocation
    cases command with
    | classify messages =>
      refine ⟨_, ?_, fun files => by rw [run, hparse]; rfl⟩
      exact fun hcode => absurd rfl hcode
    | report arguments => exact absurd hparse (h common arguments)

theorem run_of_report {args : List String} {common : CommonOptions} {arguments : ReportRequest}
    (h : parse args = .ok ⟨common, .report arguments⟩) {m : Type → Type} [Monad m]
    (files : FileAccess m) :
    run files args = runReport files common arguments (logLevelTold common) := by
  rw [run, h]
  rfl

theorem reported_run {σ : Type} {files : FileAccess (StateM σ)} (h : files.Careful)
    {args : List String} {common : CommonOptions} {arguments : ReportRequest}
    (hparse : parse args = .ok ⟨common, .report arguments⟩) (s : σ) :
    Reported files common arguments s ((run files args).run s) := by
  rw [run_of_report hparse]
  exact reported_runReport h common arguments (logLevelTold common) s

/-- **A command that fails leaves nothing behind.** Whatever the files and the arguments are:

* if the exit code is not zero, then nothing is printed and the files are as they were;
* if a report is made and the exit code is zero, then the settings could be read, and either no
  place for a document is named, by the arguments or else by the settings, and the files are as
  they were, or the document stands at the place that is named, and nothing else has changed;
* whatever is no report, to classify texts in particular, asks nothing of any files;
* the replay that makes up the document always succeeds, so that a file that could be opened for
  it is never left behind by a failure. -/
theorem run_effects (t : FileTree) (args : List String) :
    (((run FileTree.access args).run t).1.code ≠ 0 →
      ((run FileTree.access args).run t).1.stdout = "" ∧
        ((run FileTree.access args).run t).2 = t) ∧
    (∀ common arguments, parse args = .ok ⟨common, .report arguments⟩ →
      ((run FileTree.access args).run t).1.code = 0 →
      ∃ settings, (loadSettings FileTree.access common.config).run t = (.ok settings, t) ∧
        (arguments.output.or settings.report.output = none ∧
            ((run FileTree.access args).run t).2 = t ∨
          ∃ path place document, arguments.output.or settings.report.output = some path ∧
            t.locate path = .ok place ∧ ∀ other,
              ((run FileTree.access args).run t).2.node? other =
                if other = place then some (.file document) else t.node? other)) ∧
    ((∀ common arguments, parse args ≠ .ok ⟨common, .report arguments⟩) →
      ∃ outcome, ∀ {m : Type → Type} [Monad m] (files : FileAccess m),
        run files args = pure outcome) ∧
    ∀ plan content source, ∃ done, replay plan content source = .ok done := by
  refine ⟨?_, ?_, ?_, exists_replay⟩
  · intro hcode
    by_cases hreport : ∃ common arguments, parse args = .ok ⟨common, .report arguments⟩
    · obtain ⟨common, arguments, hparse⟩ := hreport
      have hreported := reported_run FileTree.access_careful hparse t
      generalize (run FileTree.access args).run t = result at hcode hreported ⊢
      cases hreported with
      | failed code stdout => exact ⟨stdout, rfl⟩
      | succeeded code => exact absurd code hcode
    · have hnot : ∀ common arguments, parse args ≠ .ok ⟨common, .report arguments⟩ :=
        fun common arguments hparse => hreport ⟨common, arguments, hparse⟩
      obtain ⟨outcome, hstdout, hrun⟩ := run_of_not_report hnot
      rw [hrun FileTree.access] at hcode ⊢
      exact ⟨hstdout hcode, rfl⟩
  · intro common arguments hparse hcode
    have hreported := reported_run FileTree.access_careful hparse t
    generalize (run FileTree.access args).run t = result at hcode hreported ⊢
    cases hreported with
    | failed code stdout =>
      rw [code] at hcode
      cases hcode
    | @succeeded outcome t' settings replay code load made =>
      refine ⟨settings, load, ?_⟩
      cases made with
      | unwritten _ output => exact .inl ⟨output, rfl⟩
      | @written path _ _ output write =>
        have hwritten : t.written path replay.document = .ok t' := by
          have hresult := FileTree.written_of_access (congrArg Prod.fst write)
          rw [write] at hresult
          exact hresult
        obtain ⟨place, hlocate, hnodes⟩ := FileTree.node?_written hwritten
        exact .inr ⟨path, place, replay.document, output, hlocate, hnodes⟩
  · intro hnot
    obtain ⟨outcome, -, hrun⟩ := run_of_not_report hnot
    exact ⟨outcome, hrun⟩

/-- A working directory with a log in it. -/
def loggedTree : FileTree :=
  (FileTree.start ["w"]).put ["w", "log"] (.file "ERROR: failed external call: f".toByteArray)

/-- The report of a log is written to a place in the directory of the log; to a place whose
directory is missing it is not, and then nothing is printed either. -/
theorem run_effects_missing_directory :
    ((run FileTree.access ["report", "log", "-o", "no/out"]).run loggedTree).1.code ≠ 0 ∧
    ((run FileTree.access ["report", "log", "-o", "no/out"]).run loggedTree).1.stdout = "" ∧
    ((run FileTree.access ["report", "log", "-o", "no/out"]).run loggedTree).2 = loggedTree ∧
    ((run FileTree.access ["report", "log", "-o", "out"]).run loggedTree).1.code = 0 ∧
    ∃ document, ∀ other,
      ((run FileTree.access ["report", "log", "-o", "out"]).run loggedTree).2.node? other =
        if other = ["w", "out"] then some (.file document) else loggedTree.node? other := by
  have hfailed :
      ((run FileTree.access ["report", "log", "-o", "no/out"]).run loggedTree).1.code ≠ 0 := by
    decide +kernel
  have hdone :
      ((run FileTree.access ["report", "log", "-o", "out"]).run loggedTree).1.code = 0 := by
    decide +kernel
  obtain ⟨hleft, -⟩ := run_effects loggedTree ["report", "log", "-o", "no/out"]
  obtain ⟨-, hwritten, -⟩ := run_effects loggedTree ["report", "log", "-o", "out"]
  obtain ⟨hstdout, hfiles⟩ := hleft hfailed
  obtain ⟨settings, -, ⟨hnone, -⟩ | ⟨path, place, document, houtput, hlocate, hnodes⟩⟩ :=
    hwritten _ { log := "log", output := some "out", format := none, aggregate := false } rfl hdone
  · cases hnone
  · obtain rfl : "out" = path := Option.some.inj houtput
    have hplace : loggedTree.locate "out" = .ok ["w", "out"] := by decide +kernel
    rw [hplace] at hlocate
    obtain rfl := Except.ok.inj hlocate
    exact ⟨hfailed, hstdout, hfiles, hdone, document, hnodes⟩

end CommandLine

end DiagnosticReport
