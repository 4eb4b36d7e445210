import DiagnosticReport.Proofs.Recorder.Retrying
import DiagnosticReport.Proofs.Recorder.WarnOnce
import DiagnosticReport.Proofs.Stream.Shape

/-!
# Lines that arrive twice

A warning that is to be reported once leads to one finding (`Recorder.warn_once`), but that does
not mean that its line arrives once. To write a line is to have all its bytes accepted and to flush
the output, and the flush may fail after every byte has been accepted. Such an event has failed: it
does not count as reported, so that it is not lost, and if it is recorded again, its line is
written again (`Recorder.line_twice_unflushed`).

This is the only way in which the line of a warning can arrive twice. What arrives in a turn is a
front part of what is missing of the head and the line of the event, and if all of it arrives, the
turn has succeeded or failed in its flush (`Recorder.exists_arrived`). A turn that has succeeded
puts the key of its event into the record, and no later turn writes a line for that key
(`Recorder.line_once`).
-/

namespace DiagnosticReport

open Markup

namespace Document

theorem lineBytes_ne_nil (element? : Option Element) : lineBytes element? ≠ [] := by
  have hbreak : Text.utf8 lineSeparator ≠ [] := by decide
  rw [lineBytes, Text.utf8_append]
  exact fun h => hbreak (List.append_eq_nil_iff.1 h).2

/-- **What a call sends** is nothing, or a front part of the missing head and of what is due; if it
is all of that, the call came as far as the flush. -/
theorem Outcome.exists_sent {x : Turn} (h : Outcome x) :
    ∃ sent, x.after.output.bytes = x.before.output.bytes ++ sent ∧
      (sent = [] ∨ ∃ whole, x.before.due? x.input = some whole ∧
        sent <+: x.before.headRest ++ whole ∧
        (sent = x.before.headRest ++ whole →
          x.after.output.flushed = x.before.output.flushed + 1)) := by
  cases h with
  | idle due blank headAccepted bytes => exact ⟨[], by rw [bytes, List.append_nil], .inl rfl⟩
  | @inHead whole fault n due answer headAccepted lt bytes =>
    refine ⟨_, bytes, .inr ⟨whole, due, ?_, fun hall => ?_⟩⟩
    · exact (List.take_prefix n _).trans (List.prefix_append _ _)
    · -- fewer bytes than were missing of the head
      have hlength := congrArg List.length hall
      rw [List.length_append, List.length_take, headRest, List.length_drop] at hlength
      omega
  | @behindHead whole sent due headAccepted bytes leaves =>
    refine ⟨x.before.headRest ++ sent, by rw [bytes, List.append_assoc], .inr ⟨whole, due, ?_, ?_⟩⟩
    · exact (List.prefix_append_right_inj _).2 leaves.isPrefix
    · intro hall
      have hsent : sent = whole := List.append_cancel_left hall
      cases leaves with
      | all flushed => exact flushed
      | torn answer flushed isPrefix ne => exact absurd hsent ne

end Document

namespace Recorder

/-! ### What arrives in a turn -/

/-- The bytes that the output has accepted; there are none without an output. -/
def accepted (r : Recorder) : List UInt8 :=
  r.output?.elim [] Output.bytes

/-- The number of flushes of the output so far. -/
def flushes (r : Recorder) : Nat :=
  r.output?.elim 0 Output.flushed

/-- What is missing of the head of the document. -/
def missingHead (r : Recorder) : List UInt8 :=
  r.stream.elim [] Document.headRest

/-- The bytes that arrived in a turn. -/
def arrived (x : Turn) : List UInt8 :=
  x.after.accepted.drop x.before.accepted.length

/-- The line of the finding of an event. -/
def findingLine (event : Event) : List UInt8 :=
  Document.lineBytes (Entry.ofText event.text).element?

/-- Whether a turn brought the whole line of an event with this key, behind what was missing of the
head. -/
def bringsLine (k : WarningKey) (x : Turn) : Bool :=
  match x.input with
  | .record event =>
    event.key? == some k && arrived x == x.before.missingHead ++ findingLine event
  | _ => false

/-- A turn failed, after a flush was tried. -/
structure FailsInFlush (x : Turn) : Prop where
  /-- The output failed. -/
  answer : ∃ fault, x.answer = .recorded (.error (.io fault))
  /-- The writes were over. -/
  flushes : x.after.flushes = x.before.flushes + 1

/-! ### Single turns -/

variable {r : Recorder} {doc : Document}

theorem accepted_of_stream (h : r.stream = some doc) : r.accepted = doc.output.bytes := by
  rw [accepted, output?, h]
  rfl

theorem flushes_of_stream (h : r.stream = some doc) : r.flushes = doc.output.flushed := by
  rw [flushes, output?, h]
  rfl

theorem missingHead_of_stream (h : r.stream = some doc) : r.missingHead = doc.headRest := by
  rw [missingHead, h]
  rfl

/-- To record an event leaves the document alone and leads to nothing, or the event is new and its
finding is written. -/
theorem record_stream (hdoc : r.stream = some doc) (event : Event) :
    ((r.record event).next.stream = some doc ∧ (r.record event).result = .ok none) ∨
      (r.isRepeat event = false ∧
        (r.record event).next.stream =
          some (doc.write (Entry.ofText event.text).element?).2 ∧
        (r.record event).result = (doc.write (Entry.ofText event.text).element?).1.map
          fun _ => some (.ofText event.text)) := by
  obtain ⟨hresult, hstream⟩ :=
    deliver_stream hdoc (.ofText event.text) r.settings.aggregateEvents
  have hrecording := r.recording_record event
  generalize (r.record event).result = result at hrecording ⊢
  generalize (r.record event).next = next at hrecording ⊢
  cases hrecording with
  | message plain => exact .inl ⟨hdoc, rfl⟩
  | repeated reportable old => exact .inl ⟨hdoc, rfl⟩
  | found reportable new delivered =>
    refine .inr ⟨new, (stream_markReported _ event).trans hstream, ?_⟩
    rw [← hresult, delivered]
    rfl
  | failed reportable new delivered =>
    refine .inr ⟨new, ?_, ?_⟩
    · rw [apply_ite stream, stream_markReported, ite_self, hstream]
    · rw [← hresult, delivered]
      rfl

/-- **What arrives when an event is recorded** continues what has arrived. It is a front part of
the missing head and the line of the event; if it is all of that, then the event was new, and it
led to a finding or failed in the flush. -/
theorem exists_arrived (hdoc : r.stream = some doc) (hle : doc.headAccepted ≤ doc.head.length)
    (event : Event) :
    ∃ doc', (r.record event).next.stream = some doc' ∧ doc'.headAccepted ≤ doc'.head.length ∧
      (r.record event).next.accepted =
        r.accepted ++ arrived (Run.exchange answer r (.record event)) ∧
      arrived (Run.exchange answer r (.record event)) <+: r.missingHead ++ findingLine event ∧
      (arrived (Run.exchange answer r (.record event)) = r.missingHead ++ findingLine event →
        r.isRepeat event = false ∧
          (FailsInFlush (Run.exchange answer r (.record event)) ∨
            ∃ finding, (r.record event).result = .ok (some finding))) := by
  have hline := Document.lineBytes_ne_nil (Entry.ofText event.text).element?
  have hnone : ∀ {sent : List UInt8}, sent = [] → sent ≠ doc.headRest ++ findingLine event := by
    intro sent hsent hall
    rw [hsent] at hall
    exact hline (List.append_eq_nil_iff.1 hall.symm).2
  -- what the next recorder has accepted says what has arrived
  have harrived : ∀ {doc' : Document} {sent : List UInt8},
      (r.record event).next.stream = some doc' →
      doc'.output.bytes = doc.output.bytes ++ sent →
      arrived (Run.exchange answer r (.record event)) = sent ∧
        (r.record event).next.accepted = r.accepted ++ sent := by
    intro doc' sent hnext hbytes
    have haccepted : (r.record event).next.accepted = r.accepted ++ sent := by
      rw [accepted_of_stream hnext, accepted_of_stream hdoc, hbytes]
    refine ⟨?_, haccepted⟩
    show (r.record event).next.accepted.drop r.accepted.length = sent
    rw [haccepted, List.drop_left]
  rw [missingHead_of_stream hdoc]
  rcases record_stream hdoc event with ⟨hnext, hresult⟩ | ⟨hnew, hnext, hresult⟩
  · obtain ⟨hsent, haccepted⟩ := harrived hnext (List.append_nil _).symm
    rw [hsent, haccepted]
    exact ⟨doc, hnext, hle, rfl, List.nil_prefix, fun hall => absurd hall (hnone rfl)⟩
  · obtain ⟨houtcome, hhead, -⟩ := Document.outcome_write hle (Entry.ofText event.text).element?
    obtain ⟨-, -, -, hle', -⟩ := houtcome.continuesHead rfl hle
    obtain ⟨sent, hbytes, hsent⟩ := houtcome.exists_sent
    obtain ⟨harrives, haccepted⟩ := harrived hnext hbytes
    rw [harrives, haccepted]
    refine ⟨_, hnext, hhead ▸ hle', rfl, ?_, fun hall => ⟨hnew, ?_⟩⟩
    · rcases hsent with rfl | ⟨whole, hdue, hfront, -⟩
      · exact List.nil_prefix
      · rwa [Document.eq_lineBytes_of_due? hdue] at hfront
    · obtain ⟨whole, hdue, -, hflushed⟩ := hsent.resolve_left fun hnil => hnone hnil hall
      rw [Document.eq_lineBytes_of_due? hdue] at hflushed
      rw [hresult]
      rcases doc.write_cases (Entry.ofText event.text).element? with ⟨hclosed, -⟩ | ⟨-, -, heq⟩ |
        ⟨-, -, result, doc', written, -, heq⟩
      · have hopen := Document.closed_of_due? hdue
        rw [Run.exchange_before, hclosed] at hopen
        cases hopen
      · rw [heq]
        exact .inr ⟨_, rfl⟩
      · cases result with
        | ok done =>
          rw [heq]
          exact .inr ⟨_, rfl⟩
        | error fault =>
          refine .inl ⟨⟨fault, congrArg Answer.recorded (by rw [hresult, heq]; rfl)⟩, ?_⟩
          show (r.record event).next.flushes = r.flushes + 1
          rw [flushes_of_stream hnext, flushes_of_stream hdoc]
          exact hflushed hall

theorem exists_accepted_close (hdoc : r.stream = some doc)
    (hle : doc.headAccepted ≤ doc.head.length) :
    ∃ ending, r.close.next.accepted = r.accepted ++ ending ∧
      ending <+: r.missingHead ++ Text.utf8 Document.tailLines := by
  have hnext : r.close.next.stream = some doc.close.next := by
    unfold close
    rw [hdoc]
    dsimp only
    split <;> rfl
  have hclosing : Document.Call.isClosing .close = true := rfl
  obtain ⟨houtcome, -⟩ := Document.outcome_of_isClosing hle hclosing
  obtain ⟨ending, hbytes, hending⟩ := houtcome.exists_sent
  rw [accepted_of_stream hnext, accepted_of_stream hdoc, missingHead_of_stream hdoc]
  refine ⟨ending, hbytes, ?_⟩
  rcases hending with rfl | ⟨whole, hdue, hfront, -⟩
  · exact List.nil_prefix
  · rw [Run.exchange_input, Document.due?_of_isClosing rfl, Option.ite_none_left_eq_some] at hdue
    rwa [← Option.some.inj hdue.2] at hfront

/-! ### Sessions -/

/-- **What has arrived** is what arrived in the turns, one after the other. -/
theorem accepted_final (hdoc : r.stream = some doc) (hle : doc.headAccepted ≤ doc.head.length)
    (events : List Event) :
    ∃ doc', (Run.final answer r (events.map .record)).stream = some doc' ∧
      doc'.headAccepted ≤ doc'.head.length ∧
      (Run.final answer r (events.map .record)).accepted =
        r.accepted ++ (Run.history answer r (events.map .record)).flatMap arrived := by
  induction events generalizing r doc with
  | nil => exact ⟨doc, hdoc, hle, by simp⟩
  | cons event events ih =>
    obtain ⟨doc', hdoc', hle', haccepted, -⟩ := exists_arrived hdoc hle event
    obtain ⟨doc'', hdoc'', hle'', hfinal⟩ := ih hdoc' hle'
    refine ⟨doc'', hdoc'', hle'', ?_⟩
    rw [List.map_cons, Run.final_cons, Run.history_cons, List.flatMap_cons, ← List.append_assoc,
      ← haccepted]
    exact hfinal

theorem exists_stream_of_mem (hdoc : r.stream = some doc)
    (hle : doc.headAccepted ≤ doc.head.length) {events : List Event} {x : Turn}
    (hx : x ∈ Run.history answer r (events.map .record)) :
    ∃ doc', x.before.stream = some doc' ∧ doc'.headAccepted ≤ doc'.head.length := by
  induction events generalizing r doc with
  | nil => cases hx
  | cons event events ih =>
    rw [List.map_cons, Run.history_cons] at hx
    rcases List.mem_cons.1 hx with rfl | hx
    · exact ⟨doc, hdoc, hle⟩
    · obtain ⟨doc', hdoc', hle', -⟩ := exists_arrived hdoc hle event
      exact ih hdoc' hle' hx

/-- **What arrives in a turn of a session**, as `exists_arrived` has it. -/
theorem arrived_of_mem (hdoc : r.stream = some doc) (hle : doc.headAccepted ≤ doc.head.length)
    {events : List Event} {x : Turn} (hx : x ∈ Run.history answer r (events.map .record))
    {event : Event} (hinput : x.input = .record event) :
    arrived x <+: x.before.missingHead ++ findingLine event ∧
      (arrived x = x.before.missingHead ++ findingLine event →
        x.before.isRepeat event = false ∧
          (FailsInFlush x ∨ ∃ finding, x.answer = .recorded (.ok (some finding)))) := by
  have hexchange : x = Run.exchange answer x.before (.record event) := by
    rw [← hinput]
    exact Run.eq_exchange_of_mem hx
  obtain ⟨doc', hdoc', hle'⟩ := exists_stream_of_mem hdoc hle hx
  obtain ⟨-, -, -, -, hfront, hall⟩ := exists_arrived hdoc' hle' event
  rw [← hexchange] at hfront hall
  refine ⟨hfront, fun harrived => ?_⟩
  obtain ⟨hnew, hfails | ⟨finding, hresult⟩⟩ := hall harrived
  · exact ⟨hnew, .inl hfails⟩
  · refine ⟨hnew, .inr ⟨finding, ?_⟩⟩
    rw [hexchange]
    exact congrArg Answer.recorded hresult

theorem exists_event_of_bringsLine {k : WarningKey} {x : Turn} (h : bringsLine k x = true) :
    ∃ event, x.input = .record event ∧ event.key? = some k ∧
      arrived x = x.before.missingHead ++ findingLine event := by
  unfold bringsLine at h
  split at h
  next event hinput =>
    rw [Bool.and_eq_true, beq_iff_eq, beq_iff_eq] at h
    exact ⟨event, hinput, h.1, h.2⟩
  next => cases h

/-- **A line that arrives** is that of a new event, and it leads to a finding or to a failed
flush. -/
theorem bringsLine_cases (hdoc : r.stream = some doc) (hle : doc.headAccepted ≤ doc.head.length)
    {events : List Event} {k : WarningKey} {x : Turn}
    (hx : x ∈ Run.history answer r (events.map .record)) (hline : bringsLine k x = true) :
    k ∉ x.before.reported.keys ∧ (FailsInFlush x ∨ findsKey k x = true) := by
  obtain ⟨event, hinput, hkey, harrived⟩ := exists_event_of_bringsLine hline
  obtain ⟨hnew, hcases⟩ := (arrived_of_mem hdoc hle hx hinput).2 harrived
  refine ⟨fun hmem => ?_, hcases.imp_right ?_⟩
  · rw [isRepeat_iff.2 ⟨k, hkey, hmem⟩] at hnew
    cases hnew
  · rintro ⟨finding, hanswer⟩
    exact findsKey_iff.2 ⟨event, finding, hinput, hanswer, hkey⟩

/-- **No line behind a line that counts.** If a later turn brings a line for the same key, the turn
failed in its flush. -/
theorem failsInFlush_of_bringsLine (hdoc : r.stream = some doc)
    (hle : doc.headAccepted ≤ doc.head.length) {events : List Event} {k : WarningKey}
    {pre post : List Turn} {x y : Turn}
    (hrun : Run.history answer r (events.map .record) = pre ++ x :: post)
    (hx : bringsLine k x = true) (hy : y ∈ post) (hline : bringsLine k y = true) :
    FailsInFlush x := by
  have hxrun : x ∈ Run.history answer r (events.map .record) := by simp [hrun]
  have hyrun : y ∈ Run.history answer r (events.map .record) := by simp [hrun, hy]
  obtain ⟨-, hfails | hfinds⟩ := bringsLine_cases hdoc hle hxrun hx
  · exact hfails
  · -- the record that the later turn met holds the key
    have hmem := mem_keys_of_establishes hrun (.found hfinds) hy
    obtain ⟨hnot, -⟩ := bringsLine_cases hdoc hle hyrun hline
    exact absurd hmem hnot

/-- **Lines that arrive.** Whatever the output does:

* what it has accepted in the end is what it held, what arrived turn by turn, and a front part of
  what was missing of the head and of the tail;
* what arrives when an event is recorded is a front part of what is missing of the head and of the
  line of the event;
* if the whole line of an event arrives, then the event has led to a finding or has failed in the
  flush, and if another line arrives for the same key later on, it has failed in the flush;
* so if no line arrives whose flush fails, then at most one line arrives for a key. -/
theorem line_once (metadata : Metadata) (settings : RecorderSettings) (output : Output)
    (events : List Event) :
    (∃ ending,
      (Run.final answer (start metadata settings (some output))
        (events.map .record)).close.next.accepted =
        output.bytes ++ (Run.history answer (start metadata settings (some output))
          (events.map .record)).flatMap arrived ++ ending ∧
      ending <+: (Run.final answer (start metadata settings (some output))
        (events.map .record)).missingHead ++ Text.utf8 Document.tailLines) ∧
    (∀ x ∈ Run.history answer (start metadata settings (some output)) (events.map .record),
      ∀ event, x.input = .record event →
        arrived x <+: x.before.missingHead ++ findingLine event) ∧
    ∀ k,
      (∀ pre x post, Run.history answer (start metadata settings (some output))
        (events.map .record) = pre ++ x :: post → bringsLine k x = true →
          (FailsInFlush x ∨ ∃ finding, x.answer = .recorded (.ok (some finding))) ∧
          ((∃ y ∈ post, bringsLine k y = true) → FailsInFlush x)) ∧
      ((∀ x ∈ Run.history answer (start metadata settings (some output)) (events.map .record),
        bringsLine k x = true → ¬ FailsInFlush x) →
        (Run.history answer (start metadata settings (some output))
          (events.map .record)).countP (bringsLine k) ≤ 1) := by
  have hdoc : (start metadata settings (some output)).stream =
      some (Document.start metadata output) := rfl
  have hle : (Document.start metadata output).headAccepted ≤
      (Document.start metadata output).head.length := Nat.zero_le _
  refine ⟨?_, ?_, fun k => ⟨?_, ?_⟩⟩
  · obtain ⟨doc, hfinal, hfinalLe, haccepted⟩ := accepted_final hdoc hle events
    obtain ⟨ending, hclose, hending⟩ := exists_accepted_close hfinal hfinalLe
    exact ⟨ending, by rw [hclose, haccepted]; rfl, hending⟩
  · intro x hx event hinput
    exact (arrived_of_mem hdoc hle hx hinput).1
  · intro pre x post hrun hx
    refine ⟨?_, fun ⟨y, hy, hline⟩ => failsInFlush_of_bringsLine hdoc hle hrun hx hy hline⟩
    have hxrun : x ∈ Run.history answer (start metadata settings (some output))
        (events.map .record) := by simp [hrun]
    obtain ⟨-, hfails | hfinds⟩ := bringsLine_cases hdoc hle hxrun hx
    · exact .inl hfails
    · obtain ⟨event, finding, -, hanswer, -⟩ := findsKey_iff.1 hfinds
      exact .inr ⟨finding, hanswer⟩
  · intro hflushes
    -- a line that arrives is that of a finding
    refine Nat.le_trans (List.countP_mono_left fun x hx hline => ?_) (countP_findsKey_le_one k)
    obtain ⟨-, hfails | hfinds⟩ := bringsLine_cases hdoc hle hx hline
    · exact absurd hfails (hflushes x hx hline)
    · exact hfinds

/-- An output that accepts all bytes and fails in its first flush: the warning has not been
reported, and when it is recorded again, its line is in the document twice. -/
theorem line_twice_unflushed :
    (Run.history answer (start ⟨⟨"", ""⟩⟩ {} (some { flushes := [some ⟨"disk full", false⟩] }))
      ([.onceWarning (.named "f") "execve", .onceWarning (.named "f") "execve"].map
        .record)).countP (bringsLine (.of (.named "f") "execve")) = 2 ∧
    (Run.final answer (start ⟨⟨"", ""⟩⟩ {} (some { flushes := [some ⟨"disk full", false⟩] }))
      ([.onceWarning (.named "f") "execve", .onceWarning (.named "f") "execve"].map
        .record)).close.next.accepted =
      (start ⟨⟨"", ""⟩⟩ {} (some Output.flawless)).missingHead ++
        findingLine (.onceWarning (.named "f") "execve") ++
        findingLine (.onceWarning (.named "f") "execve") ++ Text.utf8 Document.tailLines := by
  decide +kernel

end Recorder

end DiagnosticReport
