import DiagnosticReport.CommandLine.Run
import DiagnosticReport.Proofs.Recorder.Retrying
import DiagnosticReport.Proofs.Recorder.TwoReports
import DiagnosticReport.Proofs.Report.Identity

/-!
# Usable settings identify their reports

Settings are usable if nothing that they name is blank (`Settings.validate_eq_iff`); what is named
is kept as it is, with blanks at its ends. A tool with a name that is not blank has a name, so every
report that is made with usable settings names its tool: the report at the end of a replay, and the
document that was streamed, if anything was. `Recorder.Attributed` carries this through a replay on
any output; the replay may fail, but if it does not, nothing of it is missing.
-/

namespace DiagnosticReport

open Markup

/-! ### Usable settings -/

/-- Whether a text has a character that is not blank. -/
def Text.SaysSomething (s : String) : Prop :=
  ∃ c ∈ s.toList, isBlank c = false

theorem Text.isBlankText_eq_false_iff {s : String} :
    isBlankText s = false ↔ SaysSomething s := by
  simp [isBlankText, SaysSomething]

theorem Text.isBlankText_eq_true_iff {s : String} :
    isBlankText s = true ↔ ¬ SaysSomething s := by
  rw [← isBlankText_eq_false_iff, Bool.not_eq_false]

theorem Text.SaysSomething.ne_empty {s : String} (h : SaysSomething s) : s ≠ "" := by
  rintro rfl
  obtain ⟨c, hc, -⟩ := h
  cases hc

namespace Settings

/-- Nothing that the settings name is blank. -/
structure Usable (s : Settings) : Prop where
  /-- The name of the tool. -/
  name : Text.SaysSomething s.generator.name
  /-- The version of the tool. -/
  version : Text.SaysSomething s.generator.version
  /-- The path for the document, if there is one. -/
  output : ∀ path ∈ s.report.output, Text.SaysSomething path

/-- **The check of settings** lets usable ones pass, as they are, and otherwise tells the first
problem in the order of name, version and path. -/
theorem validate_eq_iff (s : Settings) :
    (∀ s', s.validate = .ok s' ↔ s' = s ∧ s.Usable) ∧
    (s.validate = .error (.missingGenerator .name) ↔ ¬ Text.SaysSomething s.generator.name) ∧
    (s.validate = .error (.missingGenerator .version) ↔
      Text.SaysSomething s.generator.name ∧ ¬ Text.SaysSomething s.generator.version) ∧
    (s.validate = .error .emptyOutputPath ↔
      Text.SaysSomething s.generator.name ∧ Text.SaysSomething s.generator.version ∧
        ∃ path ∈ s.report.output, ¬ Text.SaysSomething path) ∧
    s.validate ≠ .error .malformed := by
  have houtput : s.report.output.any Text.isBlankText = true ↔
      ∃ path ∈ s.report.output, ¬ Text.SaysSomething path := by
    simp [Option.any_eq_true, Text.isBlankText_eq_true_iff]
  have husable : s.Usable ↔ Text.SaysSomething s.generator.name ∧
      Text.SaysSomething s.generator.version ∧
        ¬ ∃ path ∈ s.report.output, ¬ Text.SaysSomething path := by
    push Not
    exact ⟨fun h => ⟨h.name, h.version, h.output⟩, fun ⟨hname, hversion, hpath⟩ =>
      ⟨hname, hversion, hpath⟩⟩
  rw [husable]
  unfold validate
  split_ifs with hname hversion hpath <;> rw [Text.isBlankText_eq_true_iff] at hname
  · simp [hname]
  · rw [Text.isBlankText_eq_true_iff] at hversion
    rw [not_not] at hname
    simp [hname, hversion]
  · rw [Text.isBlankText_eq_true_iff, not_not] at hversion
    rw [houtput] at hpath
    rw [not_not] at hname
    simpa [hname, hversion] using hpath
  · rw [Text.isBlankText_eq_true_iff, not_not] at hversion
    rw [houtput] at hpath
    rw [not_not] at hname
    simpa [hname, hversion, eq_comm] using hpath

theorem ofText_of_decode? {content : String} {settings : Settings}
    (h : decode? content = some settings) : ofText content = settings.validate := by
  rw [ofText, h]

theorem usable_of_ofText {content : String} {settings : Settings}
    (h : ofText content = .ok settings) : settings.Usable := by
  cases hdecode : decode? content with
  | none =>
    rw [ofText, hdecode] at h
    cases h
  | some decoded =>
    rw [ofText_of_decode? hdecode] at h
    obtain ⟨rfl, husable⟩ := (decoded.validate_eq_iff.1 settings).1 h
    exact husable

theorem Usable.named {s : Settings} (h : s.Usable) :
    ¬ (s.generator.name = "" ∧ s.generator.version = "") :=
  fun hnone => h.name.ne_empty hnone.1

end Settings

/-! ### Replays on any output -/

namespace Recorder

/-- A recorder of a run for a tool, with a document if there was an output for it, that has kept
and streamed nothing but findings of texts, and all that it has streamed has arrived. -/
structure Attributed (g : Generator) (output : Option Output) (r : Recorder) : Prop where
  /-- The report is that of the tool. -/
  metadata : r.analysis.metadata = ⟨g⟩
  /-- The findings that were kept. -/
  kept : ∀ entry ∈ r.analysis.results, ∃ text, entry = .ofText text
  /-- The findings that were streamed. -/
  streamed : ∀ out ∈ output, ∃ doc ∈ r.stream, ∃ entries,
    (∀ entry ∈ entries, ∃ text, entry = Entry.ofText text) ∧
      doc.Intact ⟨g⟩ out.bytes entries ∧ doc.Settled entries

variable {g : Generator} {output : Option Output} {r : Recorder}

theorem attributed_start (g : Generator) (settings : RecorderSettings) (output : Option Output) :
    (start ⟨g⟩ settings output).Attributed g output := by
  refine ⟨rfl, by simp [start], fun out hout => ?_⟩
  obtain rfl := Option.mem_def.1 hout
  exact ⟨_, rfl, [], by simp, .start ⟨g⟩ out, fun _ => rfl⟩

theorem mem_results_record {event : Event} {entry : Entry}
    (h : entry ∈ (r.record event).next.analysis.results) :
    entry ∈ r.analysis.results ∨ entry = .ofText event.text := by
  rcases r.analysis_record event with hsame | ⟨-, hkept⟩
  · exact .inl (hsame ▸ h)
  · rw [hkept] at h
    exact (List.mem_append.1 h).imp_right List.mem_singleton.1

theorem Attributed.record (h : r.Attributed g output) {event : Event} {finding? : Option Entry}
    (hok : (r.record event).result = .ok finding?) :
    (r.record event).next.Attributed g output := by
  refine ⟨(r.metadata_record event).trans h.metadata, fun entry hentry => ?_, fun out hout => ?_⟩
  · rcases mem_results_record hentry with hold | hnew
    · exact h.kept entry hold
    · exact ⟨event.text, hnew⟩
  · obtain ⟨doc, hdoc, entries, hentries, hintact, hsettled⟩ := h.streamed out hout
    obtain ⟨doc', hdoc', hintact', hsettled'⟩ := record_intact_of_ok hdoc hintact hok
    refine ⟨doc', hdoc', _, fun entry hentry => ?_, hintact', hsettled' (.inl hsettled)⟩
    rcases List.mem_append.1 hentry with hold | hnew
    · exact hentries entry hold
    · rw [Option.mem_toList] at hnew
      subst hnew
      exact ⟨event.text, eq_ofText_of_record hok⟩

theorem close_stream_of_ok {doc : Document} (hdoc : r.stream = some doc) {analysis : Analysis}
    (hok : r.close.result = .ok analysis) :
    doc.close.result = .ok () ∧ r.close.next.output? = some doc.close.next.output := by
  unfold close at hok ⊢
  rw [hdoc] at hok ⊢
  dsimp only at hok ⊢
  cases hresult : doc.close.result with
  | error error =>
    rw [hresult] at hok
    cases hok
  | ok done => exact ⟨rfl, rfl⟩

/-- **A recorder of a run for a tool that has a name or a version**, when it is closed, leaves a
report that names the tool, and has streamed nothing or a document that names it. -/
theorem Attributed.close_of_ok (h : r.Attributed g output)
    (hnamed : ¬ (g.name = "" ∧ g.version = "")) {analysis : Analysis}
    (hok : r.close.result = .ok analysis) :
    g.Identifies r.close.next.analysis.markup ∧
      ∀ out ∈ output, ∃ out' ∈ r.close.next.output?, ∃ sent, out'.bytes = out.bytes ++ sent ∧
        (sent = [] ∨ ∃ text, sent = Text.utf8 text ∧ g.Identifies text) := by
  have hanalysis : r.close.next.analysis = ⟨⟨g⟩, r.analysis.results⟩ := by
    have hsame := congrArg Recorder.analysis r.detached_close
    rw [analysis_detached, analysis_detached] at hsame
    rw [hsame, ← h.metadata]
  refine ⟨?_, fun out hout => ?_⟩
  · have hending : ∀ c ∈ "".toList, c ≠ '<' ∧ c ≠ '>' := by simp
    have hreport := Generator.identifies_markup hnamed h.kept hending
    rwa [String.append_empty, ← hanalysis] at hreport
  · obtain ⟨doc, hdoc, entries, hentries, hintact, hsettled⟩ := h.streamed out hout
    obtain ⟨hresult, hout'⟩ := close_stream_of_ok hdoc hok
    refine ⟨_, hout', _, hintact.close_of_ok hsettled hresult, ?_⟩
    split
    · exact .inl rfl
    · exact .inr ⟨_, rfl, Generator.identifies_markup hnamed hentries (by simp)⟩

end Recorder

namespace Replay

open Recorder

variable {g : Generator} {output : Option Output} {r : Recorder} {events : List Event}

theorem attributed_recordAll {r' : Recorder} {found : List (Option Entry)}
    (h : r.Attributed g output) (hrecorded : recordAll r events = (.ok found, r')) :
    r'.Attributed g output := by
  induction events generalizing r found with
  | nil =>
    obtain ⟨-, rfl⟩ := Prod.mk.inj hrecorded
    exact h
  | cons event events ih =>
    obtain ⟨finding?, rest, hok, hrest, -⟩ := exists_of_recordAll_cons hrecorded
    exact ih (h.record hok) hrest

theorem exists_close_of_run (h : r.Attributed g output) {replay : Replay}
    (hrun : run r events = .ok replay) :
    ∃ (r' : Recorder) (analysis : Analysis), r'.Attributed g output ∧
      r'.close.result = .ok analysis ∧ replay.recorder = r'.close.next := by
  unfold run at hrun
  rcases hrecorded : recordAll r events with ⟨_ | found, r'⟩
  · rw [hrecorded] at hrun
    cases hrun
  · rw [hrecorded] at hrun
    dsimp only at hrun
    cases hclose : r'.close.result with
    | error error =>
      rw [hclose] at hrun
      cases hrun
    | ok analysis =>
      rw [hclose] at hrun
      obtain rfl := Except.ok.inj hrun
      exact ⟨r', analysis, attributed_recordAll h hrecorded, hclose, rfl⟩

end Replay

namespace Settings

/-- **Usable settings identify their reports.** A text that gives settings gives exactly those, if
neither the name nor the version of the tool nor the path for the document is blank, and otherwise
the first problem in this order. With settings that are usable, however the program was called and
whatever the events, a replay on an output that never fails comes to its end, and a replay that
does, on any output, leaves a report with exactly one block of metadata, in front of its results,
which names the tool as the settings do; so does the document that was streamed, if it is not
empty. -/
theorem identifying :
    (∀ content settings, decode? content = some settings →
      (∀ settings', ofText content = .ok settings' ↔ settings' = settings ∧ settings.Usable) ∧
      (ofText content = .error (.missingGenerator .name) ↔
        ¬ Text.SaysSomething settings.generator.name) ∧
      (ofText content = .error (.missingGenerator .version) ↔
        Text.SaysSomething settings.generator.name ∧
          ¬ Text.SaysSomething settings.generator.version) ∧
      (ofText content = .error .emptyOutputPath ↔
        Text.SaysSomething settings.generator.name ∧
          Text.SaysSomething settings.generator.version ∧
            ∃ path ∈ settings.report.output, ¬ Text.SaysSomething path) ∧
      ofText content ≠ .error .malformed) ∧
    ∀ content settings, ofText content = .ok settings →
      ∀ (arguments : CommandLine.ReportRequest) (output : Option Output) (events : List Event),
        let plan := CommandLine.reportPlan arguments settings
        ((∀ out ∈ output, out.Reliable) →
          ∃ replay, Replay.run (.start plan.metadata plan.recorder output) events = .ok replay) ∧
        ∀ replay, Replay.run (.start plan.metadata plan.recorder output) events = .ok replay →
          settings.generator.Identifies replay.analysis.markup ∧
          ∀ out ∈ output, ∃ out' ∈ replay.recorder.output?, ∃ sent,
            out'.bytes = out.bytes ++ sent ∧
              (sent = [] ∨ ∃ text, sent = Text.utf8 text ∧ settings.generator.Identifies text) := by
  refine ⟨fun content settings hdecode => ?_, fun content settings hok arguments output events =>
    ⟨fun hreliable => ?_, fun replay hrun => ?_⟩⟩
  · rw [ofText_of_decode? hdecode]
    exact settings.validate_eq_iff
  · exact ⟨_, Replay.run_of_undisturbed (Recorder.undisturbed_start _ _ hreliable) events⟩
  · have hnamed := (usable_of_ofText hok).named
    obtain ⟨r', analysis, hattributed, hclose, hrecorder⟩ :=
      Replay.exists_close_of_run (Recorder.attributed_start _ _ output) hrun
    rw [Replay.analysis, hrecorder]
    exact hattributed.close_of_ok hnamed hclose

/-- A name with blanks at its ends and a version that looks like an entity; the document of an event
that looks like the end of the results and another block of metadata. -/
theorem identifying_tagLike :
    ofText "[generator]\nname = \" <k> \"\nversion = \"\\\"&amp;\"\n" =
      .ok { generator := ⟨" <k> ", "\"&amp;"⟩ } ∧
    Output.flawless.Reliable ∧
    ∃ replay, Replay.run (.start ⟨⟨" <k> ", "\"&amp;"⟩⟩ {} (some .flawless))
        [⟨.warning, "</results>\n<metadata>", none⟩] = .ok replay ∧
      (Generator.mk " <k> " "\"&amp;").Identifies replay.analysis.markup ∧
      ∃ out ∈ replay.recorder.output?, ∃ sent, out.bytes = sent ∧
        (sent = [] ∨ ∃ text, sent = Text.utf8 text ∧
          (Generator.mk " <k> " "\"&amp;").Identifies text) := by
  have hdecode : decode? "[generator]\nname = \" <k> \"\nversion = \"\\\"&amp;\"\n" =
      some { generator := ⟨" <k> ", "\"&amp;"⟩ } := by decide +kernel
  have hreliable := Output.reliable_flawless
  obtain ⟨hsettings, hreplays⟩ := identifying
  have husable : Usable { generator := ⟨" <k> ", "\"&amp;"⟩ } :=
    ⟨⟨'<', by decide, by decide⟩, ⟨'"', by decide, by decide⟩, by simp⟩
  have hok := ((hsettings _ _ hdecode).1 _).2 ⟨rfl, husable⟩
  obtain ⟨hexists, hall⟩ := hreplays _ _ hok ⟨"run.log", none, none, false⟩ (some .flawless)
    [⟨.warning, "</results>\n<metadata>", none⟩]
  obtain ⟨replay, hrun⟩ := hexists (by rintro out ⟨⟩; exact hreliable)
  obtain ⟨hanalysis, hdocument⟩ := hall replay hrun
  exact ⟨hok, hreliable, replay, hrun, hanalysis, hdocument .flawless rfl⟩

end Settings

end DiagnosticReport
