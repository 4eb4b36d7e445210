import DiagnosticReport.Proofs.Recorder.StreamedReport

/-!
# The output does not influence the report

What a recorder keeps must not depend on the output that its document goes to. The measure of it is
the recorder without its document (`Recorder.detached`), which has no output to depend on: an event
is recorded as it would be without a document, or else it fails to be streamed, and then it has
been kept if it was to be (`Recorder.record_detached_cases`).

* `Recorder.detached_answer` : an aggregating recorder, apart from its document, goes through the
  states of the one without a document.
* `Recorder.kept_history` : what a recorder keeps, read off the turns of a session.
* `Recorder.output_independent` : **two recorders that differ in their outputs only** keep the same
  report all along.
-/

namespace DiagnosticReport

namespace Recorder

/-! ### Without the document -/

/-- A recorder without its document. -/
def detached (r : Recorder) : Recorder :=
  { r with stream := none }

@[simp] theorem settings_detached (r : Recorder) : r.detached.settings = r.settings := rfl

@[simp] theorem reported_detached (r : Recorder) : r.detached.reported = r.reported := rfl

@[simp] theorem analysis_detached (r : Recorder) : r.detached.analysis = r.analysis := rfl

@[simp] theorem repeats_detached (r : Recorder) : r.detached.repeats = r.repeats := rfl

theorem detached_markReported (r : Recorder) (event : Event) :
    (r.markReported event).detached = r.detached.markReported event := by
  unfold markReported
  cases event.origin <;> rfl

theorem detached_close (r : Recorder) : r.close.next.detached = r.detached := by
  unfold close
  split
  · rfl
  · dsimp only
    split <;> rfl

theorem deliver_detached (r : Recorder) (entry : Entry) (kept : Bool) :
    r.detached.deliver entry kept = (.ok (), (r.deliver entry kept).2.detached) := by
  rw [deliver_frame r entry kept]
  cases kept <;> rfl

theorem record_of_message (r : Recorder) {event : Event}
    (plain : event.severity.isReportable = false) :
    (r.record event).result = .ok none ∧ (r.record event).next = r := by
  simp [record, plain]

theorem record_of_repeat {r : Recorder} {event : Event}
    (reportable : event.severity.isReportable = true) (old : r.isRepeat event = true) :
    (r.record event).result = .ok none ∧
      (r.record event).next = { r with repeats := r.repeats + 1 } := by
  simp [record, reportable, old]

theorem record_detached_of_new {r : Recorder} {event : Event}
    (reportable : event.severity.isReportable = true) (new : r.isRepeat event = false) :
    (r.detached.record event).result = .ok (some (.ofText event.text)) ∧
      (r.detached.record event).next = ((r.deliver (.ofText event.text)
        r.settings.aggregateEvents).2.markReported event).detached := by
  have hnew : r.detached.isRepeat event = false := new
  have hdeliver := r.deliver_detached (.ofText event.text) r.settings.aggregateEvents
  rw [detached_markReported]
  simp [record, reportable, hnew, hdeliver]

/-- **What the document changes about an event.** Either the event is recorded as it is without a
document; or its finding is not streamed, and then it is as good as recorded if findings are kept,
and otherwise nothing has happened to the recorder but for its document. -/
theorem record_detached_cases (r : Recorder) (event : Event) :
    (∃ finding?, (r.record event).result = .ok finding? ∧
      (r.detached.record event).result = .ok finding? ∧
      (r.record event).next.detached = (r.detached.record event).next) ∨
    ∃ error, (r.record event).result = .error error ∧
      (r.detached.record event).result = .ok (some (.ofText event.text)) ∧
      (r.record event).next.detached =
        if r.settings.aggregateEvents then (r.detached.record event).next else r.detached := by
  have hrecording := r.recording_record event
  generalize (r.record event).result = result at hrecording ⊢
  generalize (r.record event).next = next at hrecording ⊢
  cases hrecording with
  | message plain =>
    obtain ⟨hresult, hnext⟩ := r.detached.record_of_message plain
    exact .inl ⟨none, rfl, hresult, hnext.symm⟩
  | repeated reportable old =>
    have hold : r.detached.isRepeat event = true := old
    obtain ⟨hresult, hnext⟩ := record_of_repeat reportable hold
    exact .inl ⟨none, rfl, hresult, hnext.symm⟩
  | found reportable new =>
    obtain ⟨hresult, hnext⟩ := record_detached_of_new reportable new
    exact .inl ⟨_, rfl, hresult, hnext.symm⟩
  | failed reportable new =>
    obtain ⟨hresult, hnext⟩ := record_detached_of_new reportable new
    -- only a failure tells the two apart, and only if findings are not kept
    refine .inr ⟨_, rfl, hresult, ?_⟩
    rw [hnext]
    cases haggregates : r.settings.aggregateEvents with
    | true => rfl
    | false =>
      rw [deliver_frame]
      rfl

theorem detached_addIssue (r : Recorder) (issue : Issue) :
    (r.addIssue issue).2.detached = (r.detached.addIssue issue).2 := by
  unfold addIssue
  rw [deliver_detached]

/-- **An aggregating recorder, apart from its document**, answers to a request as the one without a
document does. -/
theorem detached_answer {r : Recorder} (haggregates : r.settings.aggregateEvents = true)
    (request : Request) : (r.answer request).2.detached = (r.detached.answer request).2 := by
  cases request with
  | record event =>
    rcases r.record_detached_cases event with ⟨-, -, -, hnext⟩ | ⟨-, -, -, hnext⟩
    · exact hnext
    · rw [if_pos haggregates] at hnext
      exact hnext
  | addIssue issue => exact r.detached_addIssue issue
  | drain | enter | ask => rfl

/-! ### What is kept -/

/-- The issue that a turn recorded. -/
def issueOf? (x : Turn) : Option Entry :=
  match x.input with
  | .addIssue issue => some (.issue issue)
  | _ => none

/-- The issue that a turn recorded, or the finding of an event that was not passed over, whether or
not it was streamed. -/
def producedBy? (x : Turn) : Option Entry :=
  match x.input, x.answer with
  | .addIssue issue, _ => some (.issue issue)
  | .record _, .recorded (.ok none) => none
  | .record event, _ => some (.ofText event.text)
  | _, _ => none

/-- The entry that a turn of a recorder with these settings adds to what is kept. -/
def keptBy? (settings : RecorderSettings) (x : Turn) : Option Entry :=
  if settings.aggregateEvents then producedBy? x else issueOf? x

theorem drained_append (run run' : List Turn) :
    drained (run ++ run') = drained run ++ drained run' :=
  List.flatMap_append

theorem settings_record (r : Recorder) (event : Event) :
    (r.record event).next.settings = r.settings := by
  have hrecording := r.recording_record event
  generalize (r.record event).result = result at hrecording
  generalize (r.record event).next = next at hrecording ⊢
  cases hrecording with
  | message | repeated => rfl
  | found => simp
  | failed =>
    rw [apply_ite settings]
    simp

@[simp] theorem settings_answer (r : Recorder) (request : Request) :
    (r.answer request).2.settings = r.settings := by
  cases request with
  | record event => exact r.settings_record event
  | addIssue issue => exact r.settings_deliver (.issue issue) true
  | drain | enter | ask => rfl

theorem results_record (r : Recorder) (event : Event) :
    (r.record event).next.analysis.results = r.analysis.results ++
      (keptBy? r.settings (Run.exchange answer r (.record event))).toList := by
  have hanswer : (Run.exchange answer r (.record event)).answer =
      .recorded (r.record event).result := rfl
  have hresults := r.results_deliver (.ofText event.text) r.settings.aggregateEvents
  have hrecording := r.recording_record event
  unfold keptBy? producedBy? issueOf?
  rw [hanswer, Run.exchange_input]
  generalize (r.record event).result = result at hrecording ⊢
  generalize (r.record event).next = next at hrecording ⊢
  cases hrecording with
  | message | repeated => cases r.settings.aggregateEvents <;> simp
  | found =>
    rw [analysis_markReported, hresults]
    cases r.settings.aggregateEvents <;> simp
  | failed =>
    rw [apply_ite analysis, analysis_markReported, ite_self, hresults]
    cases r.settings.aggregateEvents <;> simp

/-- What was kept before a turn and what it adds have been handed over by it or are still kept. -/
theorem kept_answer (r : Recorder) (request : Request) :
    drained [Run.exchange answer r request] ++ (r.answer request).2.analysis.results =
      r.analysis.results ++ (keptBy? r.settings (Run.exchange answer r request)).toList := by
  cases request with
  | record event => exact r.results_record event
  | addIssue issue => simp [drained, answer, addIssue, keptBy?, producedBy?, issueOf?]
  | drain => simp [drained, answer, drainResults, keptBy?, producedBy?, issueOf?]
  | enter | ask => simp [drained, answer, enter, keptBy?, producedBy?, issueOf?]

/-- **What a recorder keeps in a session**, what it has handed over included. -/
theorem kept_history (r : Recorder) (requests : List Request) :
    drained (Run.history answer r requests) ++ (Run.final answer r requests).analysis.results =
      r.analysis.results ++ (Run.history answer r requests).filterMap (keptBy? r.settings) := by
  have hkept : (Run.final answer r requests).settings = r.settings ∧
      drained (Run.history answer r requests) ++ (Run.final answer r requests).analysis.results =
        r.analysis.results ++ (Run.history answer r requests).filterMap (keptBy? r.settings) := by
    refine Run.induction (P := fun run t => t.settings = r.settings ∧
      drained run ++ t.analysis.results =
        r.analysis.results ++ run.filterMap (keptBy? r.settings)) ⟨rfl, by simp [drained]⟩
      (fun run t request ih => ?_) requests
    obtain ⟨hsettings, hrun⟩ := ih
    have hstep := t.kept_answer request
    rw [hsettings] at hstep
    refine ⟨(t.settings_answer request).trans hsettings, ?_⟩
    rw [drained_append, List.append_assoc, hstep, ← List.append_assoc, hrun, List.append_assoc,
      List.filterMap_append]
    cases h : keptBy? r.settings (Run.exchange answer t request) <;> simp [h]
  exact hkept.2

/-! ### Two outputs -/

/-- What two recorders that were set and used alike have in common, whatever their outputs: the
report, and what has been reported and repeated if findings are kept. -/
structure Agree (settings : RecorderSettings) (s t : Recorder) : Prop where
  /-- The first is set this way. -/
  left : s.settings = settings
  /-- So is the second. -/
  right : t.settings = settings
  /-- They have the same report. -/
  analysis : s.analysis = t.analysis
  /-- If findings are kept, they are the same apart from their documents. -/
  detached : settings.aggregateEvents = true → s.detached = t.detached

variable {settings : RecorderSettings} {s t : Recorder}

theorem analysis_record_of_not_aggregating (h : s.settings.aggregateEvents = false)
    (event : Event) : (s.record event).next.analysis = s.analysis := by
  rcases s.analysis_record event with hsame | ⟨haggregates, -⟩
  · exact hsame
  · simp [h] at haggregates

theorem analysis_addIssue (r : Recorder) (issue : Issue) :
    (r.addIssue issue).2.analysis = (r.keep (.issue issue)).analysis := by
  rw [addIssue, analysis_deliver]
  rfl

/-- **One request to both recorders.** -/
theorem Agree.answer (h : Agree settings s t) (request : Request) :
    Agree settings (s.answer request).2 (t.answer request).2 := by
  have hdetached : settings.aggregateEvents = true →
      (s.answer request).2.detached = (t.answer request).2.detached := by
    intro haggregates
    rw [detached_answer (h.left ▸ haggregates), detached_answer (h.right ▸ haggregates),
      h.detached haggregates]
  refine ⟨by rw [settings_answer, h.left], by rw [settings_answer, h.right], ?_, hdetached⟩
  cases haggregates : settings.aggregateEvents with
  | true =>
    have hanalysis := congrArg Recorder.analysis (hdetached haggregates)
    exact hanalysis
  | false =>
    cases request with
    | record event =>
      show (s.record event).next.analysis = (t.record event).next.analysis
      rw [analysis_record_of_not_aggregating (h.left ▸ haggregates),
        analysis_record_of_not_aggregating (h.right ▸ haggregates), h.analysis]
    | addIssue issue =>
      show (s.addIssue issue).2.analysis = (t.addIssue issue).2.analysis
      rw [analysis_addIssue, analysis_addIssue, keep, keep, h.analysis]
    | drain => simp only [Recorder.answer, drainResults, h.analysis]
    | enter | ask => exact h.analysis

/-- **The output does not influence the report.** Whatever is asked for, of two recorders that are
set alike but have different outputs, or none:

* after every request they have the same report, and, if findings are kept, the same warnings have
  been reported and as many repeats passed over;
* whenever they hand over what they have kept, it is the same;
* over the session, they have kept the issues and, if findings are kept, the findings of all events
  that were not passed over, in order. -/
theorem output_independent (metadata : Metadata) (settings : RecorderSettings)
    (output output' : Option Output) (requests : List Request) :
    List.Forall₂ (fun x y : Turn => x.after.analysis = y.after.analysis ∧
        (x.input = .drain → x.answer = y.answer) ∧
        (settings.aggregateEvents = true →
          x.after.reported = y.after.reported ∧ x.after.repeats = y.after.repeats))
      (Run.history answer (start metadata settings output) requests)
      (Run.history answer (start metadata settings output') requests) ∧
    drained (Run.history answer (start metadata settings output) requests) ++
        (Run.final answer (start metadata settings output) requests).analysis.results =
      (Run.history answer (start metadata settings output) requests).filterMap
        (if settings.aggregateEvents then producedBy? else issueOf?) := by
  have hstart : Agree settings (start metadata settings output)
      (start metadata settings output') := ⟨rfl, rfl, rfl, fun _ => rfl⟩
  refine ⟨(Run.forall₂_history (R := Agree settings) ?_ hstart requests).1, ?_⟩
  · intro s t request h
    have hnext := h.answer request
    refine ⟨⟨hnext.analysis, ?_, ?_⟩, hnext⟩
    · intro hdrain
      obtain rfl : request = .drain := hdrain
      simp only [Run.exchange_answer, Recorder.answer, drainResults, h.analysis]
    · intro haggregates
      have hreported := congrArg Recorder.reported (hnext.detached haggregates)
      have hrepeats := congrArg Recorder.repeats (hnext.detached haggregates)
      exact ⟨hreported, hrepeats⟩
  · have hkept := kept_history (start metadata settings output) requests
    have hempty : (start metadata settings output).analysis.results = [] := rfl
    have hentries : keptBy? settings =
        if settings.aggregateEvents then producedBy? else issueOf? := by
      funext x
      unfold keptBy?
      split <;> rfl
    rw [hempty, List.nil_append] at hkept
    rw [hkept, ← hentries]
    rfl

/-- One of two aggregating recorders has an output that stops in the middle of the head, the other
has none: a warning counts as reported for both, and both hand over its finding. -/
theorem output_independent_torn :
    ({ aggregateEvents := true } : RecorderSettings).aggregateEvents = true ∧
    (Run.final answer (start ⟨⟨"k", "1"⟩⟩ { aggregateEvents := true }
        (some { rules := [.accept 3, .refuse] })) [.record (.onceWarning (.named "f") "execve")]
      ).reported =
      (Run.final answer (start ⟨⟨"k", "1"⟩⟩ { aggregateEvents := true } none)
        [.record (.onceWarning (.named "f") "execve")]).reported ∧
    ((Run.final answer (start ⟨⟨"k", "1"⟩⟩ { aggregateEvents := true }
        (some { rules := [.accept 3, .refuse] })) [.record (.onceWarning (.named "f") "execve")]
      ).answer .drain).1 =
      ((Run.final answer (start ⟨⟨"k", "1"⟩⟩ { aggregateEvents := true } none)
        [.record (.onceWarning (.named "f") "execve")]).answer .drain).1 := by
  have haggregates : ({ aggregateEvents := true } : RecorderSettings).aggregateEvents = true := rfl
  obtain ⟨hruns, -⟩ := output_independent ⟨⟨"k", "1"⟩⟩ { aggregateEvents := true }
    (some { rules := [.accept 3, .refuse] }) none
    [.record (.onceWarning (.named "f") "execve"), .drain]
  obtain ⟨⟨-, -, hmarked⟩, hrest⟩ := List.forall₂_cons.1 hruns
  obtain ⟨⟨-, hdrained, -⟩, -⟩ := List.forall₂_cons.1 hrest
  exact ⟨haggregates, (hmarked haggregates).1, hdrained rfl⟩

end Recorder

end DiagnosticReport
