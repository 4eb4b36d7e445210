import DiagnosticReport.Proofs.Run
import DiagnosticReport.Recorder

/-!
# Sessions with a recorder

During a run a recorder is asked to record events and issues, to hand over what it has kept, and
to enter or look up single warnings that were reported by other means. `Recorder.answer` makes
these requests the inputs of a machine, so that any order of them is a run.

What a record of an event can lead to is listed by `Recorder.Recording`, and
`Recorder.recording_record` says that nothing else can happen. What is delivered changes what is
kept and what is streamed, and nothing else (`Recorder.deliver_frame`).
-/

namespace DiagnosticReport

theorem Severity.isReportable_eq_false_iff {s : Severity} :
    s.isReportable = false ↔ s = .message := by
  simp [Severity.isReportable]

/-- The key under which an event is reported once only, if it is. -/
def Event.key? (e : Event) : Option WarningKey :=
  e.origin.map fun origin => .of origin e.text

namespace Recorder

/-- What a recorder is asked for. -/
inductive Request where
  /-- To record an event. -/
  | record (event : Event)
  /-- To record an issue. -/
  | addIssue (issue : Issue)
  /-- To hand over the entries kept so far. -/
  | drain
  /-- To count a warning as reported. -/
  | enter (origin : Origin) (text : String)
  /-- Whether a warning has been reported. -/
  | ask (origin : Origin) (text : String)

/-- What a recorder answers. -/
inductive Answer where
  /-- The finding that an event led to, if it led to one. -/
  | recorded (result : Except ReportError (Option Entry))
  /-- Whether an issue was streamed. -/
  | added (result : Except ReportError Unit)
  /-- The entries kept so far. -/
  | drained (results : Results)
  /-- Whether the warning is new. -/
  | entered (new : Bool)
  /-- Whether the warning has been reported. -/
  | asked (reported : Bool)

/-- A request, as one step of a machine. -/
def answer (r : Recorder) : Request → Answer × Recorder
  | .record event => (.recorded (r.record event).result, (r.record event).next)
  | .addIssue issue => (.added (r.addIssue issue).1, (r.addIssue issue).2)
  | .drain => (.drained r.drainResults.1, r.drainResults.2)
  | .enter origin text => (.entered (r.enter origin text).1, (r.enter origin text).2)
  | .ask origin text => (.asked (r.reported.contains origin text), r)

/-- A request with its answer, between two recorders. -/
abbrev Turn := Exchange Recorder Request Answer

/-! ### What is delivered -/

/-- What is delivered is kept if it is to be, and changes nothing else but the document. -/
theorem deliver_frame (r : Recorder) (entry : Entry) (kept : Bool) :
    (r.deliver entry kept).2 =
      { if kept then r.keep entry else r with stream := (r.deliver entry kept).2.stream } :=
  send_frame _ entry

@[simp] theorem reported_deliver (r : Recorder) (entry : Entry) (kept : Bool) :
    (r.deliver entry kept).2.reported = r.reported := by
  rw [deliver_frame]
  cases kept <;> rfl

@[simp] theorem repeats_deliver (r : Recorder) (entry : Entry) (kept : Bool) :
    (r.deliver entry kept).2.repeats = r.repeats := by
  rw [deliver_frame]
  cases kept <;> rfl

@[simp] theorem settings_deliver (r : Recorder) (entry : Entry) (kept : Bool) :
    (r.deliver entry kept).2.settings = r.settings := by
  rw [deliver_frame]
  cases kept <;> rfl

@[simp] theorem results_deliver (r : Recorder) (entry : Entry) (kept : Bool) :
    (r.deliver entry kept).2.analysis.results =
      r.analysis.results ++ if kept then [entry] else [] := by
  rw [deliver_frame]
  cases kept <;> simp [keep]

theorem analysis_deliver (r : Recorder) (entry : Entry) (kept : Bool) :
    (r.deliver entry kept).2.analysis = if kept then (r.keep entry).analysis else r.analysis := by
  rw [deliver_frame]
  cases kept <;> rfl

/-! ### Repeats -/

theorem isRepeat_iff {r : Recorder} {event : Event} :
    r.isRepeat event = true ↔ ∃ k, event.key? = some k ∧ k ∈ r.reported.keys := by
  rw [isRepeat, Event.key?]
  cases event.origin <;> simp [ReportedWarnings.contains_iff]

theorem mem_keys_markReported {r : Recorder} {event : Event} {k : WarningKey} :
    k ∈ (r.markReported event).reported.keys ↔ event.key? = some k ∨ k ∈ r.reported.keys := by
  rw [markReported, Event.key?]
  cases event.origin with
  | none => simp
  | some origin => simp [ReportedWarnings.mem_keys_insert, eq_comm]

theorem markReported_frame (r : Recorder) (event : Event) :
    r.markReported event = { r with reported := (r.markReported event).reported } := by
  unfold markReported
  split <;> rfl

@[simp] theorem settings_markReported (r : Recorder) (event : Event) :
    (r.markReported event).settings = r.settings := by
  rw [markReported_frame]

@[simp] theorem analysis_markReported (r : Recorder) (event : Event) :
    (r.markReported event).analysis = r.analysis := by
  rw [markReported_frame]

@[simp] theorem stream_markReported (r : Recorder) (event : Event) :
    (r.markReported event).stream = r.stream := by
  rw [markReported_frame]

@[simp] theorem repeats_markReported (r : Recorder) (event : Event) :
    (r.markReported event).repeats = r.repeats := by
  rw [markReported_frame]

/-! ### Events -/

/-- What the record of an event leads to: an answer and the recorder afterwards. -/
inductive Recording (r : Recorder) (event : Event) :
    Except ReportError (Option Entry) → Recorder → Prop where
  /-- A plain message is passed over. -/
  | message (plain : event.severity.isReportable = false) : Recording r event (.ok none) r
  /-- A repeat is passed over and counted. -/
  | repeated (reportable : event.severity.isReportable = true) (old : r.isRepeat event = true) :
      Recording r event (.ok none) { r with repeats := r.repeats + 1 }
  /-- A finding was kept if it was to be, streamed, and marked as reported. -/
  | found (reportable : event.severity.isReportable = true) (new : r.isRepeat event = false)
      (delivered : (r.deliver (.ofText event.text) r.settings.aggregateEvents).1 = .ok ()) :
      Recording r event (.ok (some (.ofText event.text)))
        ((r.deliver (.ofText event.text) r.settings.aggregateEvents).2.markReported event)
  /-- A finding was not streamed; it is marked as reported if it was kept. -/
  | failed {error : ReportError} (reportable : event.severity.isReportable = true)
      (new : r.isRepeat event = false)
      (delivered : (r.deliver (.ofText event.text) r.settings.aggregateEvents).1 = .error error) :
      Recording r event (.error error)
        (if r.settings.aggregateEvents then
          (r.deliver (.ofText event.text) r.settings.aggregateEvents).2.markReported event
        else (r.deliver (.ofText event.text) r.settings.aggregateEvents).2)

/-- **What the record of an event leads to.** -/
theorem recording_record (r : Recorder) (event : Event) :
    Recording r event (r.record event).result (r.record event).next := by
  unfold record
  cases hreportable : event.severity.isReportable with
  | false => exact .message hreportable
  | true =>
    cases hrepeat : r.isRepeat event with
    | true => exact .repeated hreportable hrepeat
    | false =>
      have hsettings := r.settings_deliver (.ofText event.text) r.settings.aggregateEvents
      have hfound := @Recording.found r event hreportable hrepeat
      have hfailed := @Recording.failed r event
      rcases hdeliver : r.deliver (.ofText event.text) r.settings.aggregateEvents with
        ⟨result, r'⟩
      rw [hdeliver] at hsettings hfound hfailed
      dsimp only at hsettings
      cases result with
      | ok done => simpa [hdeliver] using hfound rfl
      | error error => simpa [hdeliver, hsettings] using hfailed hreportable hrepeat rfl

/-- An event that led to a finding led to that of its text. -/
theorem eq_ofText_of_record {r : Recorder} {event : Event} {finding : Entry}
    (h : (r.record event).result = .ok (some finding)) : finding = .ofText event.text := by
  have hrecording := r.recording_record event
  rw [h] at hrecording
  generalize (r.record event).next = next at hrecording
  cases hrecording
  rfl

/-- The report stays as it was, or the finding of the text has been kept, if findings are. -/
theorem analysis_record (r : Recorder) (event : Event) :
    (r.record event).next.analysis = r.analysis ∨
      r.settings.aggregateEvents = true ∧
        (r.record event).next.analysis = (r.keep (.ofText event.text)).analysis := by
  have hdeliver := r.analysis_deliver (.ofText event.text) r.settings.aggregateEvents
  have hrecording := r.recording_record event
  generalize (r.record event).result = result at hrecording
  generalize (r.record event).next = next at hrecording ⊢
  cases hrecording with
  | message | repeated => exact .inl rfl
  | found =>
    rw [analysis_markReported]
    exact (eq_ite_iff.1 hdeliver).symm.imp_left And.right
  | failed =>
    -- whether the event is marked as reported makes no difference to the report
    rw [apply_ite Recorder.analysis, analysis_markReported, ite_self]
    exact (eq_ite_iff.1 hdeliver).symm.imp_left And.right

end Recorder

end DiagnosticReport
