import DiagnosticReport.Proofs.Recorder.Session
import DiagnosticReport.Proofs.Stream.Content

/-!
# The streamed report

A report can be had in two ways: streamed, while the run goes on, or as the tree of the entries
that a recorder has kept, rendered at the end. `Recorder.streamed_report` says that the two agree:
a document on a reliable output is the report with the entries that an aggregating recorder keeps
on the same requests, those it has handed over in between included.

Both are compared with what the requests add to a report when nothing is lost
(`Recorder.review`), which depends on the warnings reported before and on nothing else.

* `Recorder.Streams.answer` : one request to a recorder with a reliable output.
* `Recorder.keeps_answer` : one request to an aggregating recorder, whatever its output does.
* `Recorder.findings_history`, `Recorder.collected_eq` : the two kinds of runs.
-/

namespace DiagnosticReport

open Markup

namespace Recorder

/-! ### What requests add to a report -/

/-- What a request adds to the report, and the warnings reported afterwards, if nothing is
lost. -/
def review (w : ReportedWarnings) : Request → Option Entry × ReportedWarnings
  | .record event =>
    if event.severity.isReportable && !event.origin.any fun o => w.contains o event.text then
      (some (.ofText event.text), event.origin.elim w fun o => w.insert o event.text)
    else (none, w)
  | .addIssue issue => (some (.issue issue), w)
  | .enter origin text => (none, w.insert origin text)
  | .drain | .ask .. => (none, w)

/-- The entry that a turn added to the report: the finding of an event, or an issue. -/
def finding? (x : Turn) : Option Entry :=
  match x.input, x.answer with
  | .record _, .recorded (.ok finding?) => finding?
  | .addIssue issue, _ => some (.issue issue)
  | _, _ => none

/-- The findings and issues of a run. -/
def findings (run : List Turn) : Results :=
  run.filterMap finding?

/-- The entries that were handed over during a run. -/
def drained (run : List Turn) : Results :=
  run.flatMap fun x =>
    match x.answer with
    | .drained results => results
    | _ => []

/-- All that an aggregating recorder has kept of a run: what it has handed over, and what it still
has at the end. -/
def collected (metadata : Metadata) (output : Option Output) (requests : List Request) :
    Results :=
  drained (Run.history answer (start metadata { aggregateEvents := true } output) requests) ++
    (Run.final answer (start metadata { aggregateEvents := true } output)
      requests).analysis.results

theorem reported_markReported (r : Recorder) (event : Event) :
    (r.markReported event).reported =
      event.origin.elim r.reported fun o => r.reported.insert o event.text := by
  unfold markReported
  cases event.origin <;> rfl

theorem review_of_message {event : Event} (plain : event.severity.isReportable = false)
    (w : ReportedWarnings) : review w (.record event) = (none, w) := by
  simp [review, plain]

theorem review_of_repeat {r : Recorder} {event : Event} (old : r.isRepeat event = true) :
    review r.reported (.record event) = (none, r.reported) := by
  rw [isRepeat] at old
  simp [review, old]

theorem review_of_new {r : Recorder} {event : Event}
    (reportable : event.severity.isReportable = true) (new : r.isRepeat event = false) :
    review r.reported (.record event) =
      (some (.ofText event.text), (r.markReported event).reported) := by
  rw [isRepeat] at new
  simp [review, reportable, new, reported_markReported]

/-- All that a sequence of requests adds to the report. -/
def reviewed (w : ReportedWarnings) (requests : List Request) : Results :=
  (Run.history review w requests).filterMap Exchange.answer

theorem reviewed_cons (w : ReportedWarnings) (request : Request) (requests : List Request) :
    reviewed w (request :: requests) =
      (review w request).1.toList ++ reviewed (review w request).2 requests := by
  simp only [reviewed, Run.history_cons, List.filterMap_cons, Run.exchange_answer]
  cases (review w request).1 <;> rfl

/-! ### The recorder that streams -/

/-- A recorder whose document carries these entries. -/
def Streams (metadata : Metadata) (held : List UInt8) (entries : Results) (r : Recorder) : Prop :=
  ∃ doc, r.stream = some doc ∧ doc.Carries metadata held entries

variable {metadata : Metadata} {held : List UInt8} {entries : Results} {r : Recorder}

theorem Streams.start (metadata : Metadata) (settings : RecorderSettings) {out : Output}
    (h : out.Reliable) :
    (Recorder.start metadata settings (some out)).Streams metadata out.bytes [] :=
  ⟨_, rfl, Document.Carries.start metadata h⟩

theorem Streams.deliver (h : r.Streams metadata held entries) (entry : Entry) (kept : Bool) :
    ∃ r', r.deliver entry kept = (.ok (), r') ∧
      r'.Streams metadata held (entries ++ [entry]) := by
  obtain ⟨doc, hstream, hcarries⟩ := h
  obtain ⟨doc', hwrite, hcarries'⟩ := hcarries.write entry
  have hstream' : (if kept then r.keep entry else r).stream = some doc := by
    cases kept <;> exact hstream
  refine ⟨{ if kept then r.keep entry else r with stream := some doc' }, ?_, doc', rfl, hcarries'⟩
  rw [Recorder.deliver, send, hstream']
  simp only [hwrite]

theorem Streams.of_stream_eq {r' : Recorder} (h : r.Streams metadata held entries)
    (hstream : r'.stream = r.stream) : r'.Streams metadata held entries := by
  obtain ⟨doc, hdoc, hcarries⟩ := h
  exact ⟨doc, hstream.trans hdoc, hcarries⟩

theorem Streams.record (h : r.Streams metadata held entries) (event : Event) :
    (r.record event).result = .ok (review r.reported (.record event)).1 ∧
      (r.record event).next.reported = (review r.reported (.record event)).2 ∧
      (r.record event).next.Streams metadata held
        (entries ++ (review r.reported (.record event)).1.toList) := by
  have hrecording := r.recording_record event
  generalize (r.record event).result = result at hrecording ⊢
  generalize (r.record event).next = next at hrecording ⊢
  obtain ⟨r', hdelivered, hstreams⟩ :=
    h.deliver (.ofText event.text) r.settings.aggregateEvents
  cases hrecording with
  | message plain =>
    rw [review_of_message plain]
    exact ⟨rfl, rfl, by simpa using h⟩
  | repeated reportable old =>
    rw [review_of_repeat old]
    refine ⟨rfl, rfl, ?_⟩
    rw [Option.toList_none, List.append_nil]
    exact h.of_stream_eq rfl
  | found reportable new delivered =>
    rw [review_of_new reportable new, reported_markReported, reported_markReported,
      reported_deliver]
    refine ⟨rfl, rfl, hstreams.of_stream_eq ?_⟩
    rw [markReported_frame, hdelivered]
  | failed reportable new delivered =>
    -- a reliable output takes every finding
    rw [hdelivered] at delivered
    cases delivered

/-- **One request to a recorder with a reliable output.** Its document carries one entry more,
the one that the review says, and an event is answered with it. -/
theorem Streams.answer (h : r.Streams metadata held entries) (request : Request) :
    finding? (Run.exchange answer r request) = (review r.reported request).1 ∧
      (r.answer request).2.reported = (review r.reported request).2 ∧
      (r.answer request).2.Streams metadata held
        (entries ++ (review r.reported request).1.toList) ∧
      ∀ event, request = .record event →
        (r.answer request).1 = .recorded (.ok (review r.reported request).1) := by
  cases request with
  | record event =>
    obtain ⟨hresult, hreported, hstreams⟩ := h.record event
    refine ⟨?_, hreported, hstreams, fun event' _ => congrArg Answer.recorded hresult⟩
    simp [finding?, Recorder.answer, hresult]
  | addIssue issue =>
    obtain ⟨r', hdelivered, hstreams⟩ := h.deliver (.issue issue) true
    refine ⟨rfl, by simp [Recorder.answer, addIssue, review], ?_, by rintro event ⟨⟩⟩
    simpa [Recorder.answer, addIssue, hdelivered, review] using hstreams
  | drain | enter | ask =>
    refine ⟨rfl, rfl, ?_, by rintro event ⟨⟩⟩
    simp only [review, Option.toList_none, List.append_nil]
    exact h.of_stream_eq rfl

/-- **A run with a reliable output.** What is found is what the review says, and the document
carries it. -/
theorem Streams.findings_history (h : r.Streams metadata held entries)
    (requests : List Request) :
    findings (Run.history Recorder.answer r requests) = reviewed r.reported requests ∧
      (Run.final Recorder.answer r requests).Streams metadata held
        (entries ++ reviewed r.reported requests) := by
  induction requests generalizing r entries with
  | nil => exact ⟨rfl, by simpa [reviewed] using h⟩
  | cons request requests ih =>
    obtain ⟨hfinding, hreported, hstreams, -⟩ := h.answer request
    obtain ⟨hrest, hfinal⟩ := ih hstreams
    rw [hreported] at hrest hfinal
    refine ⟨?_, ?_⟩
    · rw [reviewed_cons, ← hrest, ← hfinding]
      simp only [findings, Run.history_cons, List.filterMap_cons]
      cases finding? (Run.exchange Recorder.answer r request) <;> rfl
    · rw [reviewed_cons, ← List.append_assoc]
      exact hfinal

theorem Streams.forall₂_history {held' : List UInt8} {entries' : Results} {r' : Recorder}
    (h : r.Streams metadata held entries) (h' : r'.Streams metadata held' entries')
    (hreported : r.reported = r'.reported) (requests : List Request) :
    List.Forall₂ (fun x y : Turn => x.input = y.input ∧
        ∀ event, x.input = .record event → x.answer = y.answer)
      (Run.history Recorder.answer r requests) (Run.history Recorder.answer r' requests) := by
  -- what the documents carry may differ, what has been reported does not
  refine (Run.forall₂_history (R := fun s t : Recorder =>
    (∃ entries, s.Streams metadata held entries) ∧ (∃ entries, t.Streams metadata held' entries) ∧
      s.reported = t.reported) ?_ ⟨⟨_, h⟩, ⟨_, h'⟩, hreported⟩ requests).1
  rintro s t request ⟨⟨_, hs⟩, ⟨_, ht⟩, hst⟩
  obtain ⟨-, hs_reported, hs_streams, hs_answer⟩ := hs.answer request
  obtain ⟨-, ht_reported, ht_streams, ht_answer⟩ := ht.answer request
  refine ⟨⟨rfl, fun event hevent => ?_⟩, ⟨_, hs_streams⟩, ⟨_, ht_streams⟩, ?_⟩
  · exact (hs_answer event hevent).trans (by rw [hst]; exact (ht_answer event hevent).symm)
  · rw [hs_reported, ht_reported, hst]

/-! ### The recorder that keeps everything -/

theorem keeps_record (haggregates : r.settings.aggregateEvents = true) (event : Event) :
    (r.record event).next.settings = r.settings ∧
      (r.record event).next.reported = (review r.reported (.record event)).2 ∧
      (r.record event).next.analysis.results =
        r.analysis.results ++ (review r.reported (.record event)).1.toList := by
  have hresults := r.results_deliver (.ofText event.text) r.settings.aggregateEvents
  rw [if_pos haggregates] at hresults
  have hrecording := r.recording_record event
  generalize (r.record event).result = result at hrecording
  generalize (r.record event).next = next at hrecording ⊢
  cases hrecording with
  | message plain =>
    rw [review_of_message plain]
    exact ⟨rfl, rfl, by simp⟩
  | repeated reportable old =>
    rw [review_of_repeat old]
    exact ⟨rfl, rfl, by simp⟩
  | found reportable new delivered =>
    rw [review_of_new reportable new, reported_markReported, reported_markReported,
      reported_deliver, markReported_frame]
    exact ⟨r.settings_deliver _ _, rfl, hresults⟩
  | failed reportable new delivered =>
    -- kept and marked, although it was not streamed
    rw [if_pos haggregates, review_of_new reportable new, reported_markReported,
      reported_markReported, reported_deliver, markReported_frame]
    exact ⟨r.settings_deliver _ _, rfl, hresults⟩

/-- **One request to an aggregating recorder.** What it has handed over or still has grows by the
entry that the review says. -/
theorem keeps_answer (haggregates : r.settings.aggregateEvents = true) (request : Request) :
    (r.answer request).2.settings = r.settings ∧
      (r.answer request).2.reported = (review r.reported request).2 ∧
      drained [Run.exchange answer r request] ++ (r.answer request).2.analysis.results =
        r.analysis.results ++ (review r.reported request).1.toList := by
  cases request with
  | record event =>
    obtain ⟨hsettings, hreported, hresults⟩ := keeps_record haggregates event
    exact ⟨hsettings, hreported, hresults⟩
  | addIssue issue => exact ⟨by simp [answer, addIssue], by simp [answer, addIssue, review],
      by simp [drained, answer, addIssue, review]⟩
  | drain => exact ⟨rfl, rfl, by simp [drained, answer, drainResults, review]⟩
  | enter | ask => exact ⟨rfl, rfl, by simp [drained, answer, enter, review]⟩

/-- **A run of an aggregating recorder.** It keeps what the review says, in order. -/
theorem drained_append_results (haggregates : r.settings.aggregateEvents = true)
    (requests : List Request) :
    drained (Run.history answer r requests) ++ (Run.final answer r requests).analysis.results =
      r.analysis.results ++ reviewed r.reported requests := by
  induction requests generalizing r with
  | nil => simp [drained, reviewed]
  | cons request requests ih =>
    obtain ⟨hsettings, hreported, hresults⟩ := keeps_answer haggregates request
    have hrest := ih (hsettings ▸ haggregates)
    rw [hreported] at hrest
    have hdrained : drained (Run.history answer r (request :: requests)) =
        drained [Run.exchange answer r request] ++
          drained (Run.history answer (r.answer request).2 requests) := by
      simp [drained]
    rw [reviewed_cons, hdrained, Run.final_cons, List.append_assoc, hrest, ← List.append_assoc,
      hresults, List.append_assoc]

theorem collected_eq (metadata : Metadata) (output : Option Output) (requests : List Request) :
    collected metadata output requests = reviewed {} requests :=
  drained_append_results rfl requests

/-! ### The two reports -/

theorem Streams.close (h : r.Streams metadata held entries) :
    r.close.result = .ok r.analysis ∧ ∃ out, r.close.next.output? = some out ∧ out.bytes =
      held ++ if Results.shown entries = [] then []
        else Text.utf8 ({ metadata, results := entries : Analysis }.markup ++ "\n") := by
  obtain ⟨doc, hstream, hcarries⟩ := h
  obtain ⟨hresult, hbytes⟩ := hcarries.close
  unfold Recorder.close
  rw [hstream]
  simp only [hresult]
  exact ⟨trivial, doc.close.next.output, rfl, hbytes⟩

/-- **The streamed report.** On an output that never fails, whatever is asked for and however the
recorder is set: closing succeeds; the document that was streamed is empty if no finding and no
issue of the run shows anything, and otherwise it is, with a line break, the report with all that
an aggregating recorder collects on the same requests, which are the findings and issues of the
run; and with any other setting every event is answered alike. -/
theorem streamed_report (metadata : Metadata) (settings : RecorderSettings) {out : Output}
    (h : out.Reliable) (other : Option Output) (requests : List Request) :
    (∃ analysis, (Run.final answer (start metadata settings (some out)) requests).close.result =
      .ok analysis) ∧
    (∃ out', (Run.final answer (start metadata settings (some out)) requests).close.next.output? =
        some out' ∧
      ((∀ entry ∈ findings (Run.history answer (start metadata settings (some out)) requests),
        entry.markup = "") → out'.bytes = out.bytes) ∧
      ((∃ entry ∈ findings (Run.history answer (start metadata settings (some out)) requests),
        entry.markup ≠ "") → out'.bytes = out.bytes ++
          Text.utf8 ((Analysis.mk metadata (collected metadata other requests)).markup ++ "\n"))) ∧
    findings (Run.history answer (start metadata settings (some out)) requests) =
      collected metadata other requests ∧
    ∀ settings', List.Forall₂ (fun x y : Turn => x.input = y.input ∧
        ∀ event, x.input = .record event → x.answer = y.answer)
      (Run.history answer (start metadata settings (some out)) requests)
      (Run.history answer (start metadata settings' (some out)) requests) := by
  have hstart : ∀ settings, (start metadata settings (some out)).Streams metadata out.bytes [] :=
    fun settings => ⟨_, rfl, Document.Carries.start metadata h⟩
  obtain ⟨hfindings, hfinal⟩ := (hstart settings).findings_history requests
  obtain ⟨hresult, out', hout, hbytes⟩ := hfinal.close
  have hcollected : findings (Run.history answer (start metadata settings (some out)) requests) =
      collected metadata other requests :=
    hfindings.trans (collected_eq metadata other requests).symm
  rw [List.nil_append, ← hfindings] at hbytes
  refine ⟨⟨_, hresult⟩, ⟨out', hout, fun hnone => ?_, fun ⟨entry, hentry, hshows⟩ => ?_⟩,
    hcollected, fun settings' => (hstart settings).forall₂_history (hstart settings') rfl requests⟩
  · rw [hbytes, if_pos (Results.shown_eq_nil_iff.2 hnone), List.append_nil]
  · have hsome : Results.shown
        (findings (Run.history answer (start metadata settings (some out)) requests)) ≠ [] :=
      fun hnone => hshows (Results.shown_eq_nil_iff.1 hnone entry hentry)
    rw [hbytes, if_neg hsome, hcollected]

/-- The same on an output that interrupts a write and takes bytes in pieces: a warning, a repeat of
it with other arguments, and an issue that shows nothing. -/
theorem streamed_report_interrupted :
    Output.Reliable { rules := [.fail ⟨"interrupted", true⟩, .accept 3], flushes := [none] } ∧
    ∃ out', (Run.final answer (start ⟨⟨"", "1.2.0"⟩⟩ {} (some
        { rules := [.fail ⟨"interrupted", true⟩, .accept 3], flushes := [none] }))
        [.record (.onceWarning (.named "f") "calling external: f(1)"), .drain,
          .record (.onceWarning (.named "f") "calling external: f(2)"),
          .addIssue { message := "", location := {} }]).close.next.output? = some out' ∧
      out'.bytes = Text.utf8 ((Analysis.mk ⟨⟨"", "1.2.0"⟩⟩
        [.info ⟨.callingExternal, "calling external: f(1)"⟩,
          .issue { message := "", location := {} }]).markup ++ "\n") := by
  have hreliable : Output.Reliable
      { rules := [.fail ⟨"interrupted", true⟩, .accept 3], flushes := [none] } :=
    ⟨by simp [WriteRule.Harmless], by simp⟩
  obtain ⟨-, ⟨out', hout, -, hbytes⟩, -⟩ := streamed_report ⟨⟨"", "1.2.0"⟩⟩ {} hreliable none
    [.record (.onceWarning (.named "f") "calling external: f(1)"), .drain,
      .record (.onceWarning (.named "f") "calling external: f(2)"),
      .addIssue { message := "", location := {} }]
  have hcollected : collected ⟨⟨"", "1.2.0"⟩⟩ none
      [.record (.onceWarning (.named "f") "calling external: f(1)"), .drain,
        .record (.onceWarning (.named "f") "calling external: f(2)"),
        .addIssue { message := "", location := {} }] =
      [.info ⟨.callingExternal, "calling external: f(1)"⟩,
        .issue { message := "", location := {} }] := by
    decide +kernel
  have hshown := hbytes (by decide +kernel)
  rw [hcollected] at hshown
  refine ⟨hreliable, out', hout, hshown.trans ?_⟩
  exact List.nil_append _

end Recorder

end DiagnosticReport
