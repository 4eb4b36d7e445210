import DiagnosticReport.Proofs.CommandLine.Effects
import DiagnosticReport.Proofs.Recorder.TwoReports

/-!
# Two commands for one report

A report can be streamed to a file, or printed when all findings have been kept. For the same log
and the same settings the two commands come to the same: the file that the one leaves holds what the
other prints, unless there is no finding, and both tell the same numbers. What else is asked for on
the command line has a part in what is printed and told, and none in the file.

* `CommandLine.makeReport_written`, `CommandLine.makeReport_unwritten` : how a report is made, with
  a place for the document and without one.
* `CommandLine.run_of_makeReport` : what the command for a report comes to when it has been made.
* `CommandLine.reports_agree` : **the two commands agree**.
-/

namespace DiagnosticReport

namespace CommandLine

/-! ### The command for a report -/

section Report

variable {t t' : FileTree} {common : CommonOptions} {arguments : ReportRequest}
  {settings : Settings} {content : String} {done : Replay}

/-- What the command for a report shows, if it succeeds. -/
def success (common : CommonOptions) (arguments : ReportRequest) (settings : Settings)
    (done : Replay) : Outcome where
  code := 0
  stdout := printed (reportPlan arguments settings) done.analysis
  stderr := logLevelTold common ++ settingsTold common settings ++ replayTold common done

theorem printed_of_unwritten {plan : ReportPlan} (hformat : plan.format = .xml)
    (houtput : plan.output = none) (analysis : Analysis) :
    printed plan analysis = analysis.markup ++ "\n" := by
  rw [printed, hformat]
  simp only [houtput, Option.isNone_none, if_true]
  rfl

theorem run_read (t : FileTree) (path : String) :
    (FileTree.access.read path).run t = (t.read path, t) := rfl

theorem run_write {path : String} {contents : ByteArray}
    (h : t.written path contents = .ok t') :
    (FileTree.access.write path contents).run t = (.ok (), t') := by
  show t.write path contents = _
  rw [FileTree.write, h]

theorem makeReport_written {plan : ReportPlan} {log path : String}
    (hlog : textOf (t.read log) = .ok content) (hdone : replay plan content log = .ok done)
    (houtput : plan.output = some path) (hwritten : t.written path done.document = .ok t') :
    (makeReport FileTree.access plan log).run t = (.ok done, t') := by
  rw [makeReport, run_bind, run_read, hlog]
  simp only [hdone, houtput]
  rw [run_bind, run_write hwritten]
  rfl

theorem makeReport_unwritten {plan : ReportPlan} {log : String}
    (hlog : textOf (t.read log) = .ok content) (hdone : replay plan content log = .ok done)
    (houtput : plan.output = none) :
    (makeReport FileTree.access plan log).run t = (.ok done, t) := by
  rw [makeReport, run_bind, run_read, hlog]
  simp only [hdone, houtput]
  rfl

/-- **A command for a report** succeeds if the settings can be loaded and the report can be made. -/
theorem run_of_makeReport {args : List String}
    (hparse : parse args = .ok ⟨common, .report arguments⟩)
    (hload : (loadSettings FileTree.access common.config).run t = (.ok settings, t))
    (hmade : (makeReport FileTree.access (reportPlan arguments settings) arguments.log).run t =
      (.ok done, t')) :
    (run FileTree.access args).run t = (success common arguments settings done, t') := by
  rw [run_of_report hparse, runReport, run_bind, hload]
  dsimp only
  rw [run_bind, hmade]
  rfl

end Report

/-! ### The two commands -/

/-- What is told about a report with these numbers. -/
def countsTold (common : CommonOptions) (findings events repeats : Nat) : String :=
  if common.quiet then ""
  else tell ("   Reported " ++ findings.repr ++ " finding(s) from " ++ events.repr ++
    " event(s), " ++ repeats.repr ++ " repeat(s) suppressed")

theorem counts_of_replay {plan : ReportPlan} {content source : String} {done : Replay}
    (h : replay plan content source = .ok done) :
    Replay.Counts (Transcript.events content source) done :=
  Replay.counts_of_run
    (Recorder.undisturbed_start plan.metadata plan.recorder (reliable_of_plan plan)) rfl rfl h

theorem document_of_replay {plan : ReportPlan} {path content source : String} {done : Replay}
    (houtput : plan.output = some path) (h : replay plan content source = .ok done) :
    done.document = Replay.streamed plan.metadata (Transcript.events content source) := by
  rw [replay, houtput] at h
  exact Replay.document_of_run h

theorem analysis_of_replay {plan : ReportPlan} {content source : String} {done : Replay}
    (haggregates : plan.recorder.aggregateEvents = true)
    (h : replay plan content source = .ok done) :
    done.analysis = Replay.report plan.metadata (Transcript.events content source) :=
  Replay.analysis_of_run (reliable_of_plan plan) haggregates h

/-- **Two commands for one report agree.** Let the settings name no place for a document, let the
log be readable and let a file be creatable at `out`. Then there are a document and numbers of
findings and repeats, so that:

* every command that streams the report of the log to `out` succeeds, changes nothing but the file
  there, which holds the document afterwards, and tells these numbers, whatever else it is asked
  for;
* every command that keeps the findings of the log and prints the report as markup succeeds, changes
  nothing, tells the same numbers, and prints the document, if there are findings;
* if there are none, the document is empty; and there are none only if all events of the log are
  plain messages;
* findings, repeats and plain messages together are all events of the log. -/
theorem reports_agree {t : FileTree} {config : Option String} {settings : Settings}
    {log out content : String}
    (hload : (loadSettings FileTree.access config).run t = (.ok settings, t))
    (hsettings : settings.report.output = none) (hlog : textOf (t.read log) = .ok content)
    (hout : ∃ t', t.written out ByteArray.empty = .ok t') :
    ∃ (document : ByteArray) (findings repeats : Nat),
      (∀ args common format aggregate,
        parse args = .ok ⟨common, .report { log, output := some out, format, aggregate }⟩ →
        common.config = config →
        ((run FileTree.access args).run t).1.code = 0 ∧
        ((run FileTree.access args).run t).1.stderr =
          logLevelTold common ++ settingsTold common settings ++
            countsTold common findings (Transcript.events content log).length repeats ∧
        t.written out document = .ok ((run FileTree.access args).run t).2 ∧
        ((run FileTree.access args).run t).2.read out = .ok document) ∧
      (∀ args common,
        parse args =
          .ok ⟨common, .report { log, output := none, format := some .xml, aggregate := true }⟩ →
        common.config = config →
        ((run FileTree.access args).run t).1.code = 0 ∧
        ((run FileTree.access args).run t).1.stderr =
          logLevelTold common ++ settingsTold common settings ++
            countsTold common findings (Transcript.events content log).length repeats ∧
        ((run FileTree.access args).run t).2 = t ∧
        (findings ≠ 0 →
          ((run FileTree.access args).run t).1.stdout.toByteArray = document)) ∧
      (findings = 0 → document = ByteArray.empty) ∧
      (findings = 0 ↔ ∀ event ∈ Transcript.events content log, event.severity = .message) ∧
      findings + repeats + (Transcript.events content log).countP (·.severity = .message) =
        (Transcript.events content log).length := by
  have hlogged : ∀ event ∈ Transcript.events content log, event.Logged :=
    fun event => Transcript.logged_of_mem_events
  obtain ⟨empty, hempty⟩ := hout
  obtain ⟨place, hwritable, -⟩ := FileTree.written_eq_ok_iff.1 hempty
  obtain ⟨tree, htree⟩ := exists_replay
    (reportPlan { log, output := none, format := some .xml, aggregate := true } settings)
    content log
  have hcounts := counts_of_replay htree
  have hdocument := hcounts.streamed_eq hlogged ⟨settings.generator⟩
  refine ⟨Replay.streamed ⟨settings.generator⟩ (Transcript.events content log), tree.findings,
    tree.repeats, ?_, ?_, fun hnone => ?_, hcounts.findings_eq_zero_iff, hcounts.total⟩
  · rintro args common format aggregate hparse rfl
    obtain ⟨done, hdone⟩ := exists_replay
      (reportPlan { log, output := some out, format, aggregate } settings) content log
    have hcounts' := counts_of_replay hdone
    -- whether a file can be written there does not depend on what it is to hold
    have hwritten : t.written out done.document = .ok (t.put place (.file done.document)) :=
      FileTree.written_eq_ok_iff.2 ⟨place, hwritable, rfl⟩
    have hrun := run_of_makeReport hparse hload (makeReport_written hlog hdone rfl hwritten)
    rw [document_of_replay rfl hdone] at hwritten
    rw [hrun, document_of_replay rfl hdone]
    refine ⟨rfl, ?_, hwritten, FileTree.read_written hwritten⟩
    rw [hcounts.found, ← hcounts'.found, hcounts.repeats_eq hcounts', ← hcounts'.all]
    rfl
  · rintro args common hparse rfl
    rw [run_of_makeReport hparse hload (makeReport_unwritten hlog htree hsettings)]
    refine ⟨rfl, ?_, rfl, fun hsome => ?_⟩
    · rw [← hcounts.all]
      rfl
    · rw [hdocument, if_neg hsome, success, printed_of_unwritten rfl hsettings,
        analysis_of_replay rfl htree]
      rfl
  · rw [hdocument, if_pos hnone]

/-- Two commands that stream the report of a log, one of which is quiet and prints it as well, and
one that prints it: the file and the print are the same. -/
theorem reports_agree_streamed :
    (loadSettings FileTree.access none).run loggedTree = (.ok .default, loggedTree) ∧
    ∃ document,
      ((run FileTree.access ["report", "log", "-o", "out"]).run loggedTree).2.read "out" =
        .ok document ∧
      ((run FileTree.access ["-q", "report", "log", "--format", "json", "--aggregate", "-o",
        "out"]).run loggedTree).2.read "out" = .ok document ∧
      ((run FileTree.access ["report", "log", "--aggregate", "--format",
        "xml"]).run loggedTree).1.stdout.toByteArray = document := by
  have hload : (loadSettings FileTree.access none).run loggedTree = (.ok .default, loggedTree) :=
    rfl
  have hlog : textOf (loggedTree.read "log") = .ok "ERROR: failed external call: f" := by
    decide +kernel
  obtain ⟨document, findings, repeats, hstreamed, hprinted, -, hplain, -⟩ :=
    reports_agree hload rfl hlog ⟨_, (rfl : loggedTree.written "out" ByteArray.empty = .ok _)⟩
  obtain ⟨-, -, -, hdocument⟩ := hstreamed ["report", "log", "-o", "out"] _ none false rfl rfl
  obtain ⟨-, -, -, hdocument'⟩ := hstreamed
    ["-q", "report", "log", "--format", "json", "--aggregate", "-o", "out"] _ (some .json) true rfl
    rfl
  obtain ⟨-, -, -, hstdout⟩ :=
    hprinted ["report", "log", "--aggregate", "--format", "xml"] _ rfl rfl
  have hsome : findings ≠ 0 := by
    rw [Ne, hplain]
    decide +kernel
  exact ⟨hload, document, hdocument, hdocument', hstdout hsome⟩

end CommandLine

end DiagnosticReport
