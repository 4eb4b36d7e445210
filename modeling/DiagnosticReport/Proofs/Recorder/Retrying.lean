import DiagnosticReport.Proofs.Recorder.Independence
import DiagnosticReport.Proofs.Stream.Reserve

/-!
# Events that are recorded until they succeed

If the output of a document fails, the event whose finding was to be streamed can be recorded
again. A session in which every event is recorded until this succeeds is `Recorder.Retried`. A
recorder that keeps issues only is, after a failure, what it was before but for its document; so
such a session comes to the same as one without failures:

* `Recorder.Retried.detached_final` : the answers that succeeded and the recorder at the end, apart
  from its document, are those of a recorder without a document.
* `Recorder.Retried.intact_final` : if all failures were in the head, the document has the findings
  and nothing else.
* `Recorder.exists_retried` : every failure is used up, so a session of this kind exists.
* `Recorder.retried_faultless` : **retrying makes failures invisible.**
-/

namespace DiagnosticReport

namespace Recorder

/-! ### Sessions with retries -/

/-- A session that records these events in order, each of them until it succeeds. -/
inductive Retried : List Event → List Turn → Prop where
  /-- Nothing is left to record. -/
  | done : Retried [] []
  /-- An event was recorded; the next one follows. -/
  | recorded {event : Event} {events : List Event} {x : Turn} {run : List Turn}
      {finding? : Option Entry} (input : x.input = .record event)
      (answer : x.answer = .recorded (.ok finding?)) (rest : Retried events run) :
      Retried (event :: events) (x :: run)
  /-- The output failed; the same event is recorded again. -/
  | failed {event : Event} {events : List Event} {x : Turn} {run : List Turn} {fault : Fault}
      (input : x.input = .record event) (answer : x.answer = .recorded (.error (.io fault)))
      (again : Retried (event :: events) run) : Retried (event :: events) (x :: run)

/-- What came of a turn that recorded an event, if it succeeded. -/
def outcome? (x : Turn) : Option (Option Entry) :=
  match x.answer with
  | .recorded (.ok finding?) => some finding?
  | _ => none

/-- What came of the events of a session, as far as they were recorded. -/
def outcomes (run : List Turn) : List (Option Entry) :=
  run.filterMap outcome?

theorem outcomes_cons_of_ok {x : Turn} {finding? : Option Entry}
    (h : x.answer = .recorded (.ok finding?)) (run : List Turn) :
    outcomes (x :: run) = finding? :: outcomes run := by
  simp [outcomes, outcome?, h]

theorem outcomes_cons_of_error {x : Turn} {error : ReportError}
    (h : x.answer = .recorded (.error error)) (run : List Turn) :
    outcomes (x :: run) = outcomes run := by
  simp [outcomes, outcome?, h]

variable {r : Recorder} {events : List Event} {requests : List Request}

/-- **A session with retries, apart from the document**, comes to the same as one without a
document. -/
theorem Retried.detached_final (hissues : r.settings.aggregateEvents = false)
    (h : Retried events (Run.history answer r requests)) :
    outcomes (Run.history answer r requests) =
        outcomes (Run.history answer r.detached (events.map .record)) ∧
      (Run.final answer r requests).detached =
        Run.final answer r.detached (events.map .record) := by
  induction requests generalizing r events with
  | nil =>
    cases h
    exact ⟨rfl, rfl⟩
  | cons request requests ih =>
    rw [Run.history_cons] at h ⊢
    cases h with
    | @recorded event events _ _ finding? input result rest =>
      obtain rfl : request = .record event := input
      have hok : (r.record event).result = .ok finding? := Answer.recorded.inj result
      rcases r.record_detached_cases event with ⟨finding?', hok', hdetached, hnext⟩ |
        ⟨error, herror, -⟩
      · obtain rfl : finding? = finding?' := Except.ok.inj (hok.symm.trans hok')
        obtain ⟨houtcomes, hfinal⟩ := ih ((r.settings_record event).symm ▸ hissues) rest
        have hresult : (Run.exchange answer r.detached (.record event)).answer =
            .recorded (.ok finding?) := congrArg Answer.recorded hdetached
        rw [List.map_cons, Run.history_cons, outcomes_cons_of_ok result,
          outcomes_cons_of_ok hresult, Run.final_cons, Run.final_cons]
        have hafter : (r.detached.answer (.record event)).2 =
            (r.answer (.record event)).2.detached := hnext.symm
        rw [hafter]
        exact ⟨congrArg _ houtcomes, hfinal⟩
      · rw [hok] at herror
        cases herror
    | @failed event events _ _ fault input result again =>
      obtain rfl : request = .record event := input
      have herror : (r.record event).result = .error (.io fault) := Answer.recorded.inj result
      rcases r.record_detached_cases event with ⟨finding?, hok, -⟩ | ⟨-, -, -, hnext⟩
      · rw [herror] at hok
        cases hok
      · -- the same event meets the same recorder again, apart from the document
        rw [hissues, if_neg (by decide)] at hnext
        obtain ⟨houtcomes, hfinal⟩ := ih ((r.settings_record event).symm ▸ hissues) again
        have hafter : (r.answer (.record event)).2.detached = r.detached := hnext
        rw [hafter] at houtcomes hfinal
        rw [outcomes_cons_of_error result, Run.final_cons]
        exact ⟨houtcomes, hfinal⟩

/-! ### The document -/

theorem deliver_stream {doc : Document} (hdoc : r.stream = some doc) (entry : Entry)
    (kept : Bool) :
    (r.deliver entry kept).1 = (doc.write entry.element?).1 ∧
      (r.deliver entry kept).2.stream = some (doc.write entry.element?).2 := by
  have hstream : (if kept then r.keep entry else r).stream = some doc := by
    cases kept <;> exact hdoc
  rw [deliver, send, hstream]
  exact ⟨rfl, rfl⟩

/-- The event leads to a finding that shows something. -/
structure Owes (r : Recorder) (event : Event) : Prop where
  /-- The event is reported. -/
  reportable : event.severity.isReportable = true
  /-- It is no repeat. -/
  new : r.isRepeat event = false
  /-- Its finding shows something. -/
  shows : (Entry.ofText event.text).markup ≠ ""

/-- A failure to record an event stopped the output in the head of the document. -/
def FailsInHead (x : Turn) : Prop :=
  ∀ error, x.answer = .recorded (.error error) → ∀ doc, x.after.stream = some doc →
    doc.headAccepted < doc.head.length

variable {metadata : Metadata} {held : List UInt8} {entries : Results} {doc : Document}
  {event : Event}

theorem record_intact_of_ok (hdoc : r.stream = some doc)
    (hintact : doc.Intact metadata held entries) {finding? : Option Entry}
    (hok : (r.record event).result = .ok finding?) :
    ∃ doc', (r.record event).next.stream = some doc' ∧
      doc'.Intact metadata held (entries ++ finding?.toList) ∧
      (doc.Settled entries ∨ Owes r event → doc'.Settled (entries ++ finding?.toList)) := by
  have hrecording := r.recording_record event
  rw [hok] at hrecording
  generalize (r.record event).next = next at hrecording ⊢
  cases hrecording with
  | message plain =>
    simp only [Option.toList_none, List.append_nil]
    refine ⟨doc, hdoc, hintact, fun hsettled => hsettled.resolve_right fun howes => ?_⟩
    rw [howes.reportable] at plain
    cases plain
  | repeated reportable old =>
    simp only [Option.toList_none, List.append_nil]
    refine ⟨doc, hdoc, hintact, fun hsettled => hsettled.resolve_right fun howes => ?_⟩
    rw [howes.new] at old
    cases old
  | found reportable new delivered =>
    obtain ⟨hresult, hstream⟩ :=
      deliver_stream hdoc (.ofText event.text) r.settings.aggregateEvents
    obtain ⟨hintact', hsettled'⟩ := hintact.write_of_ok (hresult.symm.trans delivered)
    refine ⟨_, (stream_markReported _ event).trans hstream, hintact', fun hsettled => ?_⟩
    exact hsettled' (hsettled.imp_right Owes.shows)

/-- An event that failed in the head of the document adds nothing to it, and is as it was. -/
theorem record_intact_of_failsInHead (hissues : r.settings.aggregateEvents = false)
    (hdoc : r.stream = some doc) (hintact : doc.Intact metadata held entries)
    {error : ReportError} (herror : (r.record event).result = .error error)
    (hhead : FailsInHead (Run.exchange answer r (.record event))) :
    ∃ doc', (r.record event).next.stream = some doc' ∧ doc'.Intact metadata held entries ∧
      Owes (r.record event).next event := by
  have hlt := hhead error (congrArg Answer.recorded herror)
  have hrecording := r.recording_record event
  rw [herror] at hrecording
  change ∀ doc', (r.record event).next.stream = some doc' → _ at hlt
  generalize (r.record event).next = next at hrecording hlt ⊢
  cases hrecording with
  | failed reportable new delivered =>
    rw [hissues] at delivered hlt ⊢
    obtain ⟨hresult, hstream⟩ := deliver_stream hdoc (.ofText event.text) false
    obtain ⟨-, hheadEq, -⟩ :=
      Document.outcome_write hintact.headAccepted_le (Entry.ofText event.text).element?
    have hshort := hlt _ hstream
    rw [hheadEq] at hshort
    obtain ⟨hintact', hshows⟩ :=
      hintact.write_of_fault (hresult.symm.trans delivered) hshort
    refine ⟨_, hstream, hintact', reportable, ?_, hshows⟩
    show (r.deliver (.ofText event.text) false).2.isRepeat event = false
    rw [isRepeat, reported_deliver]
    exact new

/-- **The document of a session with retries**, if all failures were in its head. -/
theorem Retried.intact_final (hissues : r.settings.aggregateEvents = false)
    (h : Retried events (Run.history answer r requests))
    (hheads : ∀ x ∈ Run.history answer r requests, FailsInHead x) (hdoc : r.stream = some doc)
    (hintact : doc.Intact metadata held entries)
    (hsettled : doc.Settled entries ∨ ∃ event ∈ events.head?, Owes r event) :
    ∃ doc', (Run.final answer r requests).stream = some doc' ∧
      doc'.Intact metadata held
        (entries ++ (outcomes (Run.history answer r requests)).filterMap id) ∧
      doc'.Settled (entries ++ (outcomes (Run.history answer r requests)).filterMap id) := by
  induction requests generalizing r events entries doc with
  | nil =>
    cases h
    simp only [Run.history_nil, outcomes, List.filterMap_nil, List.append_nil]
    exact ⟨doc, hdoc, hintact, hsettled.resolve_right (by simp)⟩
  | cons request requests ih =>
    rw [Run.history_cons] at h hheads ⊢
    obtain ⟨hhead, hheads⟩ := List.forall_mem_cons.1 hheads
    have hissues' : (r.answer request).2.settings.aggregateEvents = false :=
      (r.settings_answer request).symm ▸ hissues
    cases h with
    | @recorded event events _ _ finding? input result rest =>
      obtain rfl : request = .record event := input
      have hok : (r.record event).result = .ok finding? := Answer.recorded.inj result
      -- what a failure before has left open is settled by this event
      obtain ⟨doc', hdoc', hintact', hsettled'⟩ := record_intact_of_ok hdoc hintact hok
      have howes : doc.Settled entries ∨ Owes r event := hsettled.imp_right (by simp)
      rw [outcomes_cons_of_ok result, Run.final_cons]
      have hrest := ih hissues' rest hheads hdoc' hintact' (.inl (hsettled' howes))
      cases finding? <;> simpa using hrest
    | @failed event events _ _ fault input result again =>
      obtain rfl : request = .record event := input
      have herror : (r.record event).result = .error (.io fault) := Answer.recorded.inj result
      -- nothing of the line was sent, so the event is owed to the document still
      obtain ⟨doc', hdoc', hintact', howes⟩ :=
        record_intact_of_failsInHead hissues hdoc hintact herror hhead
      rw [outcomes_cons_of_error result, Run.final_cons]
      exact ih hissues' again hheads hdoc' hintact' (.inr ⟨event, rfl, howes⟩)

theorem Retried.bytes_close {settings : RecorderSettings} {output : Output}
    (hissues : settings.aggregateEvents = false)
    (h : Retried events (Run.history answer (start metadata settings (some output)) requests))
    (hheads : ∀ x ∈ Run.history answer (start metadata settings (some output)) requests,
      FailsInHead x) {analysis : Analysis}
    (hclose : (Run.final answer (start metadata settings (some output)) requests).close.result =
      .ok analysis) :
    ∃ out, (Run.final answer (start metadata settings (some output)) requests).close.next.output? =
        some out ∧
      out.bytes = output.bytes ++
        if Results.shown ((outcomes (Run.history answer (start metadata settings (some output))
          requests)).filterMap id) = [] then []
        else Text.utf8 ((Analysis.mk metadata ((outcomes (Run.history answer
          (start metadata settings (some output)) requests)).filterMap id)).markup ++ "\n") := by
  obtain ⟨doc, hdoc, hintact, hsettled⟩ :=
    h.intact_final hissues hheads rfl (Document.Intact.start metadata output) (.inl fun _ => rfl)
  rw [List.nil_append] at hintact hsettled
  unfold close at hclose ⊢
  rw [hdoc] at hclose ⊢
  simp only at hclose ⊢
  cases hresult : doc.close.result with
  | error error =>
    rw [hresult] at hclose
    cases hclose
  | ok done => exact ⟨doc.close.next.output, rfl, hintact.close_of_ok hsettled hresult⟩

/-! ### Retries come to an end -/

/-- An event is recorded, or the output has used up something of what it had in reserve. -/
theorem record_reserve (hdoc : r.stream = some doc) (hopen : doc.closed = false)
    (event : Event) :
    ∃ doc', (r.record event).next.stream = some doc' ∧ doc'.closed = false ∧
      ((∃ finding?, (r.record event).result = .ok finding?) ∨
        ∃ fault, (r.record event).result = .error (.io fault) ∧
          doc'.output.reserve < doc.output.reserve) := by
  obtain ⟨hresult, hstream⟩ :=
    deliver_stream hdoc (.ofText event.text) r.settings.aggregateEvents
  obtain ⟨hopen', hreserve, hfaults⟩ :=
    Document.write_reserve hopen (Entry.ofText event.text).element?
  have hrecording := r.recording_record event
  generalize (r.record event).result = result at hrecording ⊢
  generalize (r.record event).next = next at hrecording ⊢
  cases hrecording with
  | message | repeated => exact ⟨doc, hdoc, hopen, .inl ⟨_, rfl⟩⟩
  | found => exact ⟨_, (stream_markReported _ event).trans hstream, hopen', .inl ⟨_, rfl⟩⟩
  | failed _ _ delivered =>
    rw [hresult] at delivered
    obtain ⟨fault, rfl⟩ := hfaults _ delivered
    refine ⟨_, ?_, hopen', .inr ⟨fault, rfl, ?_⟩⟩
    · rw [apply_ite stream, stream_markReported, ite_self, hstream]
    · rw [delivered, failureCost_error] at hreserve
      omega

/-- **Events can be recorded until they succeed**, on every output. -/
theorem exists_retried (hdoc : r.stream = some doc) (hopen : doc.closed = false)
    (events : List Event) :
    ∃ requests, Retried events (Run.history answer r requests) := by
  induction events generalizing r doc with
  | nil => exact ⟨[], .done⟩
  | cons event events ih =>
    induction hn : doc.output.reserve using Nat.strongRecOn generalizing r doc with
    | _ n ihn =>
      obtain ⟨doc', hdoc', hopen', ⟨finding?, hok⟩ | ⟨fault, herror, hlt⟩⟩ :=
        record_reserve hdoc hopen event
      · obtain ⟨requests, hrest⟩ := ih hdoc' hopen'
        exact ⟨.record event :: requests, .recorded rfl (congrArg Answer.recorded hok) hrest⟩
      · obtain ⟨requests, hagain⟩ := ihn _ (hn ▸ hlt) hdoc' hopen' rfl
        exact ⟨.record event :: requests, .failed rfl (congrArg Answer.recorded herror) hagain⟩

/-! ### Reliable outputs -/

theorem Streams.retried (h : r.Streams metadata held entries) (events : List Event) :
    Retried events (Run.history Recorder.answer r (events.map .record)) ∧
      ∀ x ∈ Run.history Recorder.answer r (events.map .record),
        ∃ finding?, x.answer = .recorded (.ok finding?) := by
  induction events generalizing r entries with
  | nil => exact ⟨.done, by simp⟩
  | cons event events ih =>
    obtain ⟨-, -, hstreams, hanswer⟩ := h.answer (.record event)
    obtain ⟨hrest, hall⟩ := ih hstreams
    have hok := hanswer event rfl
    exact ⟨.recorded rfl hok hrest, List.forall_mem_cons.2 ⟨⟨_, hok⟩, hall⟩⟩

/-- **Retrying makes failures invisible.** Let findings be streamed and not kept. Events can be
recorded on any output so that each is recorded again until it succeeds, and however this goes, it
comes to the same as on a reliable output, where each of them succeeds at once:

* the answers that succeeded are the answers there;
* the warnings that count as reported, the number of repeats and the report are the same;
* if all failures stopped the output before the end of the head, and the document can be closed,
  then it is the same too, byte by byte. -/
theorem retried_faultless (metadata : Metadata) (output : Output) {reliable : Output}
    (h : reliable.Reliable) (events : List Event) :
    (∃ attempts,
      Retried events (Run.history answer (start metadata {} (some output)) attempts)) ∧
    (∀ x ∈ Run.history answer (start metadata {} (some reliable)) (events.map .record),
      ∃ finding?, x.answer = .recorded (.ok finding?)) ∧
    ∀ attempts, Retried events (Run.history answer (start metadata {} (some output)) attempts) →
      outcomes (Run.history answer (start metadata {} (some output)) attempts) =
        outcomes (Run.history answer (start metadata {} (some reliable)) (events.map .record)) ∧
      (Run.final answer (start metadata {} (some output)) attempts).reported =
        (Run.final answer (start metadata {} (some reliable)) (events.map .record)).reported ∧
      (Run.final answer (start metadata {} (some output)) attempts).repeats =
        (Run.final answer (start metadata {} (some reliable)) (events.map .record)).repeats ∧
      (Run.final answer (start metadata {} (some output)) attempts).analysis =
        (Run.final answer (start metadata {} (some reliable)) (events.map .record)).analysis ∧
      ((∀ x ∈ Run.history answer (start metadata {} (some output)) attempts, FailsInHead x) →
        ∀ analysis,
          (Run.final answer (start metadata {} (some output)) attempts).close.result =
            .ok analysis →
          ∃ out out' written,
            (Run.final answer (start metadata {} (some output)) attempts).close.next.output? =
              some out ∧
            (Run.final answer (start metadata {} (some reliable))
              (events.map .record)).close.next.output? = some out' ∧
            out.bytes = output.bytes ++ written ∧ out'.bytes = reliable.bytes ++ written) := by
  have hstreams : (start metadata {} (some reliable)).Streams metadata reliable.bytes [] :=
    ⟨_, rfl, Document.Carries.start metadata h⟩
  obtain ⟨hcalm, hall⟩ := hstreams.retried events
  refine ⟨exists_retried rfl rfl events, hall, ?_⟩
  intro attempts hretried
  -- both recorders, apart from their documents, are the one without a document
  obtain ⟨houtcomes, hfinal⟩ := hretried.detached_final rfl
  obtain ⟨houtcomes', hfinal'⟩ := hcalm.detached_final rfl
  have hsame : outcomes (Run.history answer (start metadata {} (some output)) attempts) =
      outcomes (Run.history answer (start metadata {} (some reliable)) (events.map .record)) :=
    houtcomes.trans houtcomes'.symm
  have hdetached : (Run.final answer (start metadata {} (some output)) attempts).detached =
      (Run.final answer (start metadata {} (some reliable)) (events.map .record)).detached :=
    hfinal.trans hfinal'.symm
  have hreported := congrArg Recorder.reported hdetached
  have hrepeats := congrArg Recorder.repeats hdetached
  have hanalysis := congrArg Recorder.analysis hdetached
  refine ⟨hsame, hreported, hrepeats, hanalysis, ?_⟩
  intro hheads analysis hclose
  have hcalmHeads : ∀ x ∈ Run.history answer (start metadata {} (some reliable))
      (events.map .record), FailsInHead x := by
    intro x hx error herror
    obtain ⟨finding?, hok⟩ := hall x hx
    rw [hok] at herror
    cases herror
  obtain ⟨hcalmClose, -⟩ := (hstreams.findings_history (events.map .record)).2.close
  obtain ⟨out, hout, hbytes⟩ := hretried.bytes_close rfl hheads hclose
  obtain ⟨out', hout', hbytes'⟩ := hcalm.bytes_close rfl hcalmHeads hcalmClose
  rw [← hsame] at hbytes'
  exact ⟨out, out', _, hout, hout', hbytes, hbytes'⟩

/-- An output that stops twice in the head: a warning that is recorded three times and a repeat of
it come to the same document as a warning and a repeat. -/
theorem retried_faultless_torn :
    Output.flawless.Reliable ∧
    Retried (List.replicate 2 (.onceWarning (.named "f") "execve"))
      (Run.history answer (start ⟨⟨"k", "1"⟩⟩ {} (some
        { rules := [.accept 3, .refuse, .accept 4, .fail ⟨"disk full", false⟩] }))
        (List.replicate 4 (.record (.onceWarning (.named "f") "execve")))) ∧
    ∃ out out',
      (Run.final answer (start ⟨⟨"k", "1"⟩⟩ {} (some
        { rules := [.accept 3, .refuse, .accept 4, .fail ⟨"disk full", false⟩] }))
        (List.replicate 4 (.record (.onceWarning (.named "f") "execve")))).close.next.output? =
        some out ∧
      (Run.final answer (start ⟨⟨"k", "1"⟩⟩ {} (some Output.flawless))
        ((List.replicate 2 (.onceWarning (.named "f") "execve")).map
          .record)).close.next.output? = some out' ∧
      out.bytes = out'.bytes := by
  have hretried : Retried (List.replicate 2 (.onceWarning (.named "f") "execve"))
      (Run.history answer (start ⟨⟨"k", "1"⟩⟩ {} (some
        { rules := [.accept 3, .refuse, .accept 4, .fail ⟨"disk full", false⟩] }))
        (List.replicate 4 (.record (.onceWarning (.named "f") "execve")))) :=
    .failed rfl rfl (.failed rfl rfl (.recorded rfl rfl (.recorded rfl rfl .done)))
  have hheads : ∀ x ∈ Run.history answer (start ⟨⟨"k", "1"⟩⟩ {} (some
      { rules := [.accept 3, .refuse, .accept 4, .fail ⟨"disk full", false⟩] }))
      (List.replicate 4 (.record (.onceWarning (.named "f") "execve"))), FailsInHead x := by
    refine List.forall_mem_cons.2 ⟨?_, List.forall_mem_cons.2 ⟨?_, List.forall_mem_cons.2
      ⟨?_, List.forall_mem_cons.2 ⟨?_, by simp⟩⟩⟩⟩
    · rintro error - doc ⟨⟩
      decide +kernel
    · rintro error - doc ⟨⟩
      decide +kernel
    · rintro error ⟨⟩
    · rintro error ⟨⟩
  obtain ⟨-, -, hruns⟩ := retried_faultless ⟨⟨"k", "1"⟩⟩
    { rules := [.accept 3, .refuse, .accept 4, .fail ⟨"disk full", false⟩] }
    Output.reliable_flawless (List.replicate 2 (.onceWarning (.named "f") "execve"))
  obtain ⟨-, -, -, -, hdocument⟩ := hruns _ hretried
  obtain ⟨out, out', written, hout, hout', hbytes, hbytes'⟩ := hdocument hheads _ rfl
  exact ⟨Output.reliable_flawless, hretried, out, out', hout, hout', hbytes.trans hbytes'.symm⟩

end Recorder

end DiagnosticReport
