import DiagnosticReport.Proofs.Recorder.ReplayedLog

/-!
# Two ways from a log to a report

The events of a log can be replayed with a document, to which the findings are streamed, or without
one, so that the report is rendered when all is recorded. What is found does not depend on it
(`Replay.Counts`), and neither does the report, as long as nothing disturbs the replay:

* `Replay.counts_of_run` : how many findings, events and repeats there are.
* `Replay.findings_eq_zero_iff` : a log leads to no finding only if it has nothing but plain
  messages.
* `Replay.document_of_run` : the document, if there is one.
* `Replay.analysis_of_run` : the report, if findings are kept.
-/

namespace DiagnosticReport

namespace Recorder

/-! ### Where a report comes from -/

theorem metadata_record (r : Recorder) (event : Event) :
    (r.record event).next.analysis.metadata = r.analysis.metadata := by
  rcases r.analysis_record event with hsame | ⟨-, hkept⟩
  · rw [hsame]
  · rw [hkept]
    rfl

/-- **The report of a recorder that keeps findings**, after some events. -/
theorem analysis_final {r : Recorder} (haggregates : r.settings.aggregateEvents = true)
    (events : List Event) :
    (Run.final answer r (events.map .record)).analysis =
      ⟨r.analysis.metadata,
        r.analysis.results ++ reviewed r.reported (events.map .record)⟩ := by
  induction events generalizing r with
  | nil => simp [reviewed]
  | cons event events ih =>
    obtain ⟨hsettings, hreported, hresults⟩ := keeps_record haggregates event
    have hrest := ih (hsettings.symm ▸ haggregates)
    rw [hreported, hresults, r.metadata_record event] at hrest
    rw [List.map_cons, reviewed_cons, ← List.append_assoc]
    exact hrest

end Recorder

namespace Replay

open Recorder

variable {r : Recorder} {events : List Event} {replay : Replay}

/-! ### What is found -/

/-- Events that are nothing but plain messages lead to no finding, and others do: the first of them
cannot be a repeat. -/
theorem countP_expected_eq_zero_iff :
    (expected {} events).countP Option.isSome = 0 ↔
      ∀ event ∈ events, event.severity = .message := by
  induction events with
  | nil => simp [expected]
  | cons event events ih =>
    have hcons : expected {} (event :: events) =
        (review {} (.record event)).1 :: expected (review {} (.record event)).2 events := rfl
    rw [hcons, List.countP_cons, List.forall_mem_cons]
    rcases review_cases {} event with ⟨hpassed, heq⟩ | ⟨hplain, -, heq⟩
    · have hplain : event.severity = .message := by
        refine hpassed.resolve_right ?_
        rintro ⟨k, -, hmem⟩
        cases hmem
      simp [heq, hplain, ih]
    · simp [heq, hplain]

/-- The numbers of a replay of events, if nothing is lost. -/
structure Counts (events : List Event) (replay : Replay) : Prop where
  /-- The findings are the ones that are expected. -/
  found : replay.findings = (expected {} events).countP Option.isSome
  /-- All events were recorded. -/
  all : replay.events = events.length
  /-- Each is accounted for. -/
  total : replay.findings + replay.repeats + events.countP (·.severity = .message) =
    events.length

/-- **The numbers of a replay that nothing disturbs.** -/
theorem counts_of_run (h : r.Undisturbed) (hreported : r.reported = {}) (hrepeats : r.repeats = 0)
    (hrun : run r events = .ok replay) : Counts events replay := by
  obtain ⟨hrecorded, -⟩ := recordAll_of_undisturbed h events
  obtain ⟨hlength, hcount⟩ := recordAll_count hrecorded
  have hclosed := congrArg Recorder.repeats
    (detached_close (Run.final answer r (events.map .record)))
  simp only [repeats_detached] at hclosed
  rw [run_of_undisturbed h] at hrun
  obtain rfl := Except.ok.inj hrun
  refine ⟨congrArg (fun w => (expected w events).countP Option.isSome) hreported, hlength, ?_⟩
  rw [← hclosed, hrepeats, Nat.zero_add] at hcount
  exact hcount

theorem Counts.findings_eq_zero_iff (h : Counts events replay) :
    replay.findings = 0 ↔ ∀ event ∈ events, event.severity = .message := by
  rw [h.found, countP_expected_eq_zero_iff]

theorem Counts.repeats_eq {replay' : Replay} (h : Counts events replay)
    (h' : Counts events replay') : replay.repeats = replay'.repeats := by
  have htotal := h.total
  have htotal' := h'.total
  rw [h.found] at htotal
  rw [h'.found] at htotal'
  omega

/-! ### The document and the report -/

variable {metadata : Metadata} {settings : RecorderSettings}

/-- The report with all that the events lead to. -/
def report (metadata : Metadata) (events : List Event) : Analysis :=
  { metadata, results := reviewed {} (events.map .record) }

/-- The document with all that the events lead to: the report and a line break, unless there is
nothing to show. -/
def streamed (metadata : Metadata) (events : List Event) : ByteArray :=
  if Results.shown (report metadata events).results = [] then ByteArray.empty
  else ((report metadata events).markup ++ "\n").toByteArray

theorem Counts.streamed_eq (h : Counts events replay) (hlogged : ∀ event ∈ events, event.Logged)
    (metadata : Metadata) :
    streamed metadata events =
      if replay.findings = 0 then ByteArray.empty
      else ((report metadata events).markup ++ "\n").toByteArray := by
  -- every finding of a log shows something
  have hlength := (forall₂_shown_reviewed hlogged {}).length_eq
  have hnone : Results.shown (reviewed {} (events.map .record)) = [] ↔ replay.findings = 0 := by
    rw [← List.length_eq_zero_iff, ← hlength, ← filterMap_expected,
      List.length_filterMap_eq_countP, h.found]
    rfl
  exact if_congr hnone rfl rfl

/-- **The document of a replay** on an output that never fails and that is empty at first. -/
theorem document_of_run
    (hrun : run (start metadata settings (some .flawless)) events = .ok replay) :
    replay.document = streamed metadata events := by
  have hstart : (start metadata settings (some .flawless)).Streams metadata [] [] :=
    ⟨_, rfl, Document.Carries.start metadata Output.reliable_flawless⟩
  obtain ⟨-, out, hout, hbytes⟩ := (hstart.findings_history (events.map .record)).2.close
  have haccepted : out.accepted = out.bytes.toByteArray :=
    ByteArray.ext (by simp [Output.bytes])
  have hdocument : out.accepted = streamed metadata events := by
    rw [haccepted, hbytes, streamed, ← Text.toByteArray_utf8]
    exact apply_ite List.toByteArray _ _ _
  rw [run_of_streams hstart] at hrun
  obtain rfl := Except.ok.inj hrun
  rw [document, hout]
  exact hdocument

/-- **The report of a replay** that keeps findings. -/
theorem analysis_of_run {output : Option Output} (h : ∀ out ∈ output, out.Reliable)
    (haggregates : settings.aggregateEvents = true)
    (hrun : run (start metadata settings output) events = .ok replay) :
    replay.analysis = report metadata events := by
  have hclosed := congrArg Recorder.analysis (detached_close
    (Run.final answer (start metadata settings output) (events.map .record)))
  simp only [analysis_detached] at hclosed
  rw [run_of_undisturbed (undisturbed_start metadata settings h)] at hrun
  obtain rfl := Except.ok.inj hrun
  exact hclosed.trans (analysis_final haggregates events)

end Replay

end DiagnosticReport
