import DiagnosticReport.Proofs.Diagnostic.OneWinner
import DiagnosticReport.Proofs.Recorder.Independence
import DiagnosticReport.Proofs.Recorder.Review
import DiagnosticReport.Proofs.Transcript.Grammar
import DiagnosticReport.Replay

/-!
# Logs that are replayed

A log that was recorded in one run is read, and its events are recorded again. On a reliable output
nothing is lost on the way, so the log alone decides what the replay leaves behind.

The events that a log can hold are not arbitrary: they say something, and those that are to be
reported once are warnings (`Event.Logged`). So every finding shows something, and every event with
a key counts as reported after it was recorded.

* `Transcript.logged_of_mem_events` : what is known of the events of a log.
* `Recorder.size_final_review` : as many warnings are reported as a log holds different ones.
* `Replay.recordAll_count` : every event leads to a finding, is a repeat, or is a plain message.
* `Replay.replayed_log` : **a log that is replayed** on a reliable output.
-/

namespace DiagnosticReport

open Markup

/-! ### The events of a log -/

/-- An event as a log can tell of it. -/
structure Event.Logged (e : Event) : Prop where
  /-- It says something. -/
  text_ne : e.text ≠ ""
  /-- If it is to be reported once, it is a warning. -/
  severity_of_origin : e.origin.isSome = true → e.severity = .warning

theorem Transcript.logged_of_mem_events {content source : String} {event : Event}
    (h : event ∈ Transcript.events content source) : event.Logged := by
  obtain ⟨line, -, hline⟩ := List.mem_filterMap.1 h
  obtain ⟨-, -, form, -, -, hvisible, rfl⟩ := exists_form_of_eventOfChars? hline
  refine ⟨fun hempty => ?_, fun horigin => ?_⟩
  · have htext := form.toList_text_event (.named source)
    rw [hempty] at htext
    exact hvisible.ne_nil htext.symm
  · cases form with
    | once | onceFrom => rfl
    | plain => cases horigin

theorem Event.key?_eq_some_iff {e : Event} {k : WarningKey} :
    e.key? = some k ↔ ∃ origin, e.origin = some origin ∧ WarningKey.of origin e.text = k := by
  simp [Event.key?]

theorem Event.Logged.isReportable {e : Event} (h : e.Logged) {k : WarningKey}
    (hkey : e.key? = some k) : e.severity.isReportable = true := by
  obtain ⟨origin, horigin, -⟩ := Event.key?_eq_some_iff.1 hkey
  rw [h.severity_of_origin (by rw [horigin]; rfl)]
  rfl

theorem Event.Logged.reportedKey?_eq {e : Event} (h : e.Logged) : e.reportedKey? = e.key? := by
  rw [reportedKey?, ite_eq_right_iff]
  intro hplain
  refine (Option.eq_none_iff_forall_ne_some.2 fun k hkey => ?_).symm
  have hreportable := h.isReportable hkey
  rw [hplain] at hreportable
  cases hreportable

theorem Event.filterMap_reportedKey? {events : List Event} (h : ∀ e ∈ events, e.Logged) :
    events.filterMap Event.reportedKey? = events.filterMap Event.key? :=
  List.filterMap_congr fun e he => (h e he).reportedKey?_eq

/-- An event that leads to nothing after these: a plain message, or a warning that is to be reported
once and comes from the same place as one of them and has the same subject. -/
def Event.PassedOver (earlier : List Event) (event : Event) : Prop :=
  event.severity = .message ∨ ∃ e ∈ earlier, ∃ origin, e.origin = some origin ∧
    event.origin = some origin ∧ warningSubject e.text = warningSubject event.text

theorem Event.passedOver_iff {earlier : List Event} {event : Event} :
    event.PassedOver earlier ↔ event.severity = .message ∨
      ∃ k, event.key? = some k ∧ k ∈ earlier.filterMap Event.key? := by
  refine or_congr_right ⟨?_, ?_⟩
  · rintro ⟨e, hmem, origin, he, hevent, hsubject⟩
    refine ⟨.of origin event.text, key?_eq_some_iff.2 ⟨origin, hevent, rfl⟩, ?_⟩
    refine List.mem_filterMap.2 ⟨e, hmem, key?_eq_some_iff.2 ⟨origin, he, ?_⟩⟩
    rw [WarningKey.of, hsubject, WarningKey.of]
  · rintro ⟨k, hkey, hmem⟩
    obtain ⟨e, he, hkey'⟩ := List.mem_filterMap.1 hmem
    obtain ⟨origin, hevent, rfl⟩ := key?_eq_some_iff.1 hkey
    obtain ⟨origin', horigin', hsame⟩ := key?_eq_some_iff.1 hkey'
    obtain ⟨rfl, hsubject⟩ := WarningKey.mk.inj hsame
    exact ⟨e, he, origin', horigin', hevent, hsubject⟩

/-! ### The finding of a text -/

namespace Entry

/-- The text that an entry has for a message. -/
def text : Entry → String
  | .issue i => i.message
  | .failure f => f.message
  | .info i => i.message

theorem text_ofText (text : String) : (ofText text).text = text := by
  unfold ofText
  dsimp only
  split <;> rfl

theorem identifier?_ofText (text : String) :
    (ofText text).identifier? = some (Category.ofText text).identifier := by
  unfold ofText
  dsimp only
  split
  next kind hkind =>
    have hcategory := Category.failureKind?_eq_some_iff.1 hkind
    rw [identifier?, FailureKind.identifier, hcategory]
  next => rfl

theorem exists_element?_ofText {text : String} (h : text ≠ "") :
    ∃ element, (ofText text).element? = some element := by
  unfold ofText
  dsimp only
  split
  · simp [element?, Failure.element?, Failure.parts, Element.text?, h]
  · simp [element?, Info.element?, Element.text?, h]

end Entry

/-! ### What has been reported -/

namespace Recorder

variable {w : ReportedWarnings} {event : Event} {events : List Event}

theorem size_final_review (h : ∀ event ∈ events, event.Logged) :
    (Run.final review {} (events.map .record)).size =
      (events.filterMap Event.key?).dedup.length := by
  have hnodup : (Run.final review {} (events.map .record)).keys.Nodup :=
    nodup_keys_final_review List.nodup_nil events
  refine ReportedWarnings.size_eq_length_dedup hnodup fun k => ?_
  rw [mem_keys_final_review, Event.filterMap_reportedKey? h]
  simp

/-- **What an event of a log leads to**, by what stands before it. -/
theorem review_final (h : ∀ e ∈ events, e.Logged) (event : Event) :
    ((review (Run.final review {} (events.map .record)) (.record event)).1 = none ↔
      event.PassedOver events) ∧
    ∀ finding, (review (Run.final review {} (events.map .record)) (.record event)).1 =
      some finding → finding = .ofText event.text := by
  have hpassed : event.PassedOver events ↔ event.severity = .message ∨
      ∃ k, event.key? = some k ∧ k ∈ (Run.final review {} (events.map .record)).keys := by
    rw [Event.passedOver_iff]
    refine or_congr_right (exists_congr fun k => and_congr_right fun _ => ?_)
    rw [mem_keys_final_review, Event.filterMap_reportedKey? h]
    simp
  rw [hpassed]
  rcases review_cases (Run.final review {} (events.map .record)) event with
    ⟨hold, heq⟩ | ⟨hplain, hnew, heq⟩
  · rw [heq]
    exact ⟨iff_of_true rfl hold, by rintro finding ⟨⟩⟩
  · rw [heq]
    refine ⟨iff_of_false (by simp) ?_, fun finding hfinding => (Option.some.inj hfinding).symm⟩
    rintro (hmessage | ⟨k, hkey, hmem⟩)
    · exact hplain hmessage
    · exact hnew k hkey hmem

theorem exists_event_of_mem_reviewed {finding : Entry}
    (h : finding ∈ reviewed w (events.map .record)) :
    ∃ event ∈ events, finding = .ofText event.text := by
  induction events generalizing w with
  | nil => simp [reviewed] at h
  | cons event events ih =>
    rw [List.map_cons, reviewed_cons, List.mem_append, Option.mem_toList] at h
    rcases h with h | h
    · rcases review_cases w event with ⟨-, heq⟩ | ⟨-, -, heq⟩
      · rw [heq] at h
        cases h
      · rw [heq] at h
        exact ⟨event, List.mem_cons_self, (Option.some.inj h).symm⟩
    · obtain ⟨event', hmem, hfinding⟩ := ih h
      exact ⟨event', List.mem_cons_of_mem _ hmem, hfinding⟩

end Recorder

/-! ### Replays -/

namespace Replay

open Recorder

variable {r r' : Recorder} {event : Event} {events : List Event} {found : List (Option Entry)}

theorem recordAll_cons_of_ok {finding? : Option Entry} (h : (r.record event).result = .ok finding?)
    (events : List Event) :
    recordAll r (event :: events) =
      ((recordAll (r.record event).next events).1.map (finding? :: ·),
        (recordAll (r.record event).next events).2) := by
  simp only [recordAll, h]

theorem exists_of_recordAll_cons (h : recordAll r (event :: events) = (.ok found, r')) :
    ∃ finding? rest, (r.record event).result = .ok finding? ∧
      recordAll (r.record event).next events = (.ok rest, r') ∧ found = finding? :: rest := by
  cases hresult : (r.record event).result with
  | error error =>
    simp only [recordAll, hresult] at h
    cases h
  | ok finding? =>
    rw [recordAll_cons_of_ok hresult] at h
    obtain ⟨hfound, hfinal⟩ := Prod.mk.inj h
    cases hrest : (recordAll (r.record event).next events).1 with
    | error error =>
      rw [hrest] at hfound
      cases hfound
    | ok rest =>
      rw [hrest] at hfound
      exact ⟨finding?, rest, rfl, Prod.ext hrest hfinal, (Except.ok.inj hfound).symm⟩

/-- An event that is recorded leads to a finding, is counted as a repeat, or is a plain message. -/
theorem record_count {finding? : Option Entry} (h : (r.record event).result = .ok finding?) :
    [finding?].countP Option.isSome + (r.record event).next.repeats +
      [event].countP (·.severity = .message) = r.repeats + 1 := by
  have hplain := (Severity.isReportable_eq_false_iff (s := event.severity)).symm
  have hrecording := r.recording_record event
  rw [h] at hrecording
  generalize (r.record event).next = next at hrecording ⊢
  cases hrecording with
  | message plain => simp [hplain, plain]
  | repeated reportable => simp [hplain, reportable]
  | found reportable => simp [hplain, reportable, Nat.add_comm]

/-- **Every event is accounted for.** -/
theorem recordAll_count (h : recordAll r events = (.ok found, r')) :
    found.length = events.length ∧
      found.countP Option.isSome + r'.repeats + events.countP (·.severity = .message) =
        r.repeats + events.length := by
  induction events generalizing r found with
  | nil =>
    obtain ⟨hfound, rfl⟩ := Prod.mk.inj h
    obtain rfl := Except.ok.inj hfound
    simp
  | cons event events ih =>
    obtain ⟨finding?, rest, hresult, hrest, rfl⟩ := exists_of_recordAll_cons h
    obtain ⟨hlength, hcount⟩ := ih hrest
    have hone := record_count hresult
    simp only [List.countP_singleton] at hone
    refine ⟨congrArg (· + 1) hlength, ?_⟩
    rw [List.countP_cons, List.countP_cons, List.length_cons]
    omega

/-! ### Reliable outputs -/

/-- What each of these events leads to, if nothing is lost. -/
def expected (w : ReportedWarnings) (events : List Event) : List (Option Entry) :=
  (Run.history review w (events.map .record)).map Exchange.answer

theorem filterMap_expected (w : ReportedWarnings) (events : List Event) :
    (expected w events).filterMap id = reviewed w (events.map .record) := by
  rw [expected, reviewed, List.filterMap_map]
  rfl

theorem getElem?_expected (w : ReportedWarnings) (earlier later : List Event) (event : Event) :
    (expected w (earlier ++ event :: later))[earlier.length]? =
      some (review (Run.final review w (earlier.map .record)) (.record event)).1 := by
  have hlength : ((Run.history review w (earlier.map .record)).map Exchange.answer).length =
      earlier.length := by simp
  rw [expected, List.map_append, Run.history_append, List.map_append, ← hlength,
    List.getElem?_append_right (le_refl _), Nat.sub_self]
  rfl

variable {metadata : Metadata} {held : List UInt8} {entries : Results}

/-- **Recording without a disturbance** loses nothing. -/
theorem recordAll_of_undisturbed (h : r.Undisturbed) (events : List Event) :
    recordAll r events =
        (.ok (expected r.reported events), Run.final answer r (events.map .record)) ∧
      (Run.final answer r (events.map .record)).reported =
        Run.final review r.reported (events.map .record) := by
  induction events generalizing r with
  | nil => exact ⟨rfl, rfl⟩
  | cons event events ih =>
    obtain ⟨hresult, hreported, hnext⟩ := h.record event
    obtain ⟨hrest, hfinal⟩ := ih hnext
    rw [hreported] at hrest hfinal
    refine ⟨?_, hfinal⟩
    rw [recordAll_cons_of_ok hresult, hrest]
    rfl

theorem recordAll_of_streams (h : r.Streams metadata held entries) (events : List Event) :
    recordAll r events =
        (.ok (expected r.reported events), Run.final answer r (events.map .record)) ∧
      (Run.final answer r (events.map .record)).reported =
        Run.final review r.reported (events.map .record) :=
  recordAll_of_undisturbed (.inr ⟨_, _, _, h⟩) events

/-- **A replay that nothing disturbs** comes to its end. -/
theorem run_of_undisturbed (h : r.Undisturbed) (events : List Event) :
    run r events = .ok
      { found := expected r.reported events
        recorder := (Run.final answer r (events.map .record)).close.next } := by
  obtain ⟨hrecorded, -⟩ := recordAll_of_undisturbed h events
  have hclose := (h.final events).close
  simp only [run, hrecorded, hclose]
  rfl

theorem run_of_streams (h : r.Streams metadata held entries) (events : List Event) :
    run r events = .ok
      { found := expected r.reported events
        recorder := (Run.final answer r (events.map .record)).close.next } :=
  run_of_undisturbed (.inr ⟨_, _, _, h⟩) events

theorem forall₂_shown {found : Results} (h : ∀ finding ∈ found, ∃ element,
    finding.element? = some element) :
    List.Forall₂ (fun finding element => finding.element? = some element) found
      (Results.shown found) := by
  induction found with
  | nil => exact .nil
  | cons finding found ih =>
    obtain ⟨⟨element, helement⟩, hfound⟩ := List.forall_mem_cons.1 h
    rw [Results.shown, List.filterMap_cons_some helement]
    exact .cons helement (ih hfound)

theorem forall₂_shown_reviewed (hlogged : ∀ event ∈ events, event.Logged)
    (w : ReportedWarnings) :
    List.Forall₂ (fun finding element => finding.element? = some element)
      (reviewed w (events.map .record)) (Results.shown (reviewed w (events.map .record))) := by
  refine forall₂_shown fun finding hfinding => ?_
  obtain ⟨event, hevent, rfl⟩ := exists_event_of_mem_reviewed hfinding
  exact Entry.exists_element?_ofText (hlogged event hevent).text_ne

/-- **The document of a log** holds one element for each finding. -/
theorem exists_document (h : r.Streams metadata held [])
    (hlogged : ∀ event ∈ events, event.Logged) :
    ∃ out elements written,
      (Run.final answer r (events.map .record)).close.next.output? = some out ∧
      List.Forall₂ (fun finding element => finding.element? = some element)
        (reviewed r.reported (events.map .record)) elements ∧
      out.bytes = held ++ written ∧ (written = [] ↔ elements = []) ∧
      (elements ≠ [] → written = Text.utf8 ((Element.group .analysis []
        (metadata.element?.toList ++ [.group .results [] elements])).render ++ "\n")) := by
  obtain ⟨-, out, hout, hbytes⟩ := (h.findings_history (events.map .record)).2.close
  rw [List.nil_append] at hbytes
  have hforall := forall₂_shown_reviewed hlogged r.reported
  by_cases hnone : Results.shown (reviewed r.reported (events.map .record)) = []
  · rw [if_pos hnone] at hbytes
    exact ⟨out, _, [], hout, hforall, hbytes, by simp [hnone], fun hsome => absurd hnone hsome⟩
  · rw [if_neg hnone] at hbytes
    refine ⟨out, _, _, hout, hforall, hbytes, iff_of_false (fun hempty => ?_) hnone, fun _ => rfl⟩
    rw [Text.utf8_append] at hempty
    exact absurd (List.append_eq_nil_iff.1 hempty).2 (by decide)

/-- **A log that is replayed.** Whatever the log and however the recorder is set, a replay on an
output that never fails comes to its end, and then:

* an event has led to nothing exactly if it is a plain message or repeats one before it, and
  otherwise to the finding with the identifier of its text and with its text;
* findings, repeats and plain messages together are all events;
* as many warnings have been reported as there are different keys among the events that have one;
* the document holds one element for each finding, in order, and it is empty exactly if there is no
  finding. -/
theorem replayed_log (metadata : Metadata) (settings : RecorderSettings) {out : Output}
    (h : out.Reliable) (content source : String) :
    ∃ replay, run (start metadata settings (some out)) (Transcript.events content source) =
        .ok replay ∧
      (∀ earlier event later,
        Transcript.events content source = earlier ++ event :: later →
        ∃ finding?, replay.found[earlier.length]? = some finding? ∧
          (finding? = none ↔ event.PassedOver earlier) ∧
          ∀ finding, finding? = some finding →
            finding.identifier? = some (Category.ofText event.text).identifier ∧
              finding.text = event.text) ∧
      (replay.events = (Transcript.events content source).length ∧
        replay.findings + replay.repeats +
          (Transcript.events content source).countP (·.severity = .message) = replay.events) ∧
      replay.recorder.reported.size =
        ((Transcript.events content source).filterMap Event.key?).dedup.length ∧
      ∃ elements written,
        List.Forall₂ (fun finding element => finding.element? = some element)
          (replay.found.filterMap id) elements ∧
        replay.document.data.toList = out.bytes ++ written ∧
        (written = [] ↔ replay.findings = 0) ∧
        (replay.findings ≠ 0 → written = Text.utf8 ((Element.group .analysis []
          (metadata.element?.toList ++ [.group .results [] elements])).render ++ "\n")) := by
  have hlogged : ∀ event ∈ Transcript.events content source, event.Logged :=
    fun event => Transcript.logged_of_mem_events
  generalize Transcript.events content source = events at hlogged ⊢
  have hstart : (start metadata settings (some out)).Streams metadata out.bytes [] :=
    ⟨_, rfl, Document.Carries.start metadata h⟩
  obtain ⟨hrecorded, hreported⟩ := recordAll_of_streams hstart events
  obtain ⟨hlength, hcount⟩ := recordAll_count hrecorded
  have hclosed := detached_close (Run.final answer (start metadata settings (some out))
    (events.map .record))
  refine ⟨_, run_of_streams hstart events, ?_, ⟨hlength, ?_⟩, ?_, ?_⟩
  · rintro earlier event later rfl
    have hearlier : ∀ e ∈ earlier, e.Logged := fun e he => hlogged e (List.mem_append_left _ he)
    obtain ⟨hnone, hsome⟩ := review_final hearlier event
    refine ⟨_, getElem?_expected _ earlier later event, hnone, fun finding hfinding => ?_⟩
    rw [hsome finding hfinding]
    exact ⟨Entry.identifier?_ofText event.text, Entry.text_ofText event.text⟩
  · have hrepeats := congrArg Recorder.repeats hclosed
    simp only [repeats_detached] at hrepeats
    rw [← hrepeats] at hcount
    show (expected _ events).countP Option.isSome + _ + _ = (expected _ events).length
    rw [hlength, repeats]
    exact hcount.trans (Nat.zero_add _)
  · have hsize := congrArg Recorder.reported hclosed
    simp only [reported_detached] at hsize
    rw [hsize, hreported]
    exact size_final_review hlogged
  · obtain ⟨out', elements, written, hout, hforall, hbytes, hnil, hreport⟩ :=
      exists_document hstart hlogged
    rw [← filterMap_expected] at hforall
    have hfindings : (expected _ events).countP Option.isSome = elements.length :=
      List.length_filterMap_eq_countP.symm.trans hforall.length_eq
    have hnone : elements = [] ↔ (expected {} events).countP Option.isSome = 0 := by
      rw [← List.length_eq_zero_iff, ← hfindings]
      rfl
    refine ⟨elements, written, hforall, ?_, hnil.trans hnone, fun hsome => ?_⟩
    · rw [document, hout]
      exact hbytes
    · exact hreport (mt hnone.1 hsome)

/-- A warning, the same warning with other arguments, the same from another place, and a plain
message: two findings, one repeat and one message, and two keys. -/
theorem replayed_log_repeat :
    Output.flawless.Reliable ∧
    ∃ replay, run (start ⟨⟨"k", "1"⟩⟩ {} (some .flawless)) (Transcript.events
        ("KLEE: WARNING ONCE: calling external: f(0)\r\nWARNING ONCE: calling external: f(1)\n" ++
          "WARNING ONCE [g.c]: calling external: f(0)\n\ndone") "run.log") = .ok replay ∧
      replay.found[1]? = some none ∧ replay.findings + replay.repeats + 1 = 4 ∧
      replay.recorder.reported.size = 2 := by
  have hevents : Transcript.events
      ("KLEE: WARNING ONCE: calling external: f(0)\r\nWARNING ONCE: calling external: f(1)\n" ++
        "WARNING ONCE [g.c]: calling external: f(0)\n\ndone") "run.log" =
      [.onceWarning (.named "run.log") "calling external: f(0)"] ++
        .onceWarning (.named "run.log") "calling external: f(1)" ::
        [.onceWarning (.named "g.c") "calling external: f(0)",
          { severity := .message, text := "done" }] := by
    decide +kernel
  obtain ⟨replay, hrun, hfound, ⟨hlength, hcount⟩, hsize, -⟩ := replayed_log ⟨⟨"k", "1"⟩⟩ {}
    Output.reliable_flawless
    ("KLEE: WARNING ONCE: calling external: f(0)\r\nWARNING ONCE: calling external: f(1)\n" ++
      "WARNING ONCE [g.c]: calling external: f(0)\n\ndone") "run.log"
  obtain ⟨finding?, hsecond, hnone, -⟩ := hfound _ _ _ hevents
  have hrepeat : Event.PassedOver [.onceWarning (.named "run.log") "calling external: f(0)"]
      (.onceWarning (.named "run.log") "calling external: f(1)") :=
    .inr ⟨_, List.mem_cons_self, .named "run.log", rfl, rfl, by decide +kernel⟩
  rw [hevents] at hlength hcount hsize
  refine ⟨Output.reliable_flawless, replay, hrun, ?_, ?_, ?_⟩
  · rw [← hnone.2 hrepeat]
    exact hsecond
  · rw [hlength] at hcount
    exact hcount
  · rw [hsize]
    decide +kernel

end Replay

end DiagnosticReport
