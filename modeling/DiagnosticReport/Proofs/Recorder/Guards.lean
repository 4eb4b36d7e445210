import DiagnosticReport.Proofs.Recorder.Session
import DiagnosticReport.Proofs.Stream.Guards
import DiagnosticReport.Proofs.Stream.Reserve

/-!
# Nobody meets a closed document

A recorder closes its document when it is closed itself, and then it can no longer be used. So the
document of a recorder that can be used is open (`Recorder.Ready`), and that is kept by every
request, whatever the output does (`Recorder.ready_answer`). `Recorder.checks_hold` puts this
together with what is known of documents in use: of the two errors of a report, that of a closed
document is met by nobody but the user of a document who has closed it.
-/

namespace DiagnosticReport

open Markup

namespace Recorder

/-- The document, if there is one, is open, and no more of its head has been accepted than there
is. -/
def Ready (r : Recorder) : Prop :=
  ∀ doc, r.stream = some doc → doc.closed = false ∧ doc.headAccepted ≤ doc.head.length

/-- The answer that tells of a closed document. -/
def Answer.IsClosed : Answer → Prop
  | .recorded result => result = .error .closed
  | .added result => result = .error .closed
  | .drained _ | .entered _ | .asked _ => False

variable {r : Recorder}

theorem ready_start (metadata : Metadata) (settings : RecorderSettings) (output : Option Output) :
    (start metadata settings output).Ready := by
  intro doc hdoc
  obtain ⟨out, -, rfl⟩ := Option.map_eq_some_iff.1 hdoc
  exact ⟨rfl, Nat.zero_le _⟩

theorem Ready.of_stream_eq {r' : Recorder} (h : r.Ready) (hstream : r'.stream = r.stream) :
    r'.Ready := by
  rw [Ready, hstream]
  exact h

theorem Ready.send (h : r.Ready) (entry : Entry) :
    (r.send entry).2.Ready ∧ (r.send entry).1 ≠ .error .closed := by
  unfold Recorder.send
  cases hstream : r.stream with
  | none => exact ⟨h, by simp⟩
  | some doc =>
    obtain ⟨hopen, hle⟩ := h doc hstream
    obtain ⟨hopen', -, -⟩ := Document.write_reserve hopen entry.element?
    obtain ⟨houtcome, hhead, -⟩ := Document.outcome_write hle entry.element?
    have hrefused := (doc.write_eq_closed_iff entry.element?).1
    refine ⟨fun doc' hdoc' => ?_, ?_⟩
    · obtain rfl := Option.some.inj hdoc'
      exact ⟨hopen', hhead ▸ houtcome.headAccepted_le hle⟩
    · rw [hopen] at hrefused
      exact fun hclosed => absurd (hrefused.1 hclosed) (by simp)

theorem Ready.deliver (h : r.Ready) (entry : Entry) (kept : Bool) :
    (r.deliver entry kept).2.Ready ∧ (r.deliver entry kept).1 ≠ .error .closed := by
  cases kept with
  | false => exact h.send entry
  | true => exact Ready.send (r := r.keep entry) h entry

theorem Ready.record (h : r.Ready) (event : Event) :
    (r.record event).next.Ready ∧ (r.record event).result ≠ .error .closed := by
  obtain ⟨hready, hne⟩ := h.deliver (.ofText event.text) r.settings.aggregateEvents
  have hrecording := r.recording_record event
  generalize (r.record event).result = result at hrecording ⊢
  generalize (r.record event).next = next at hrecording ⊢
  cases hrecording with
  | message plain => exact ⟨h, by simp⟩
  | repeated reportable old => exact ⟨h, by simp⟩
  | found reportable new delivered =>
    exact ⟨hready.of_stream_eq (stream_markReported _ event), by simp⟩
  | failed reportable new delivered =>
    refine ⟨?_, fun hclosed => hne (delivered.trans ?_)⟩
    · split
      · exact hready.of_stream_eq (stream_markReported _ event)
      · exact hready
    · rw [Except.error.inj hclosed]

/-- **What a request to a recorder in use comes to.** The recorder can be used further, and is
not told that its document is closed. -/
theorem ready_answer (h : r.Ready) (request : Request) :
    (r.answer request).2.Ready ∧ ¬ (r.answer request).1.IsClosed := by
  cases request with
  | record event => exact h.record event
  | addIssue issue => exact h.deliver (.issue issue) true
  | drain | enter | ask => exact ⟨h, id⟩

theorem ready_final (metadata : Metadata) (settings : RecorderSettings) (output : Option Output)
    (requests : List Request) :
    (∀ x ∈ Run.history answer (start metadata settings output) requests, ¬ x.answer.IsClosed) ∧
      (Run.final answer (start metadata settings output) requests).Ready := by
  refine Run.induction (P := fun (run : List Turn) r => (∀ x ∈ run, ¬ x.answer.IsClosed) ∧ r.Ready)
    ⟨by simp, ready_start metadata settings output⟩ (fun run r request ih => ?_) requests
  obtain ⟨hready, hanswer⟩ := ready_answer ih.2 request
  refine ⟨fun x hx => ?_, hready⟩
  rcases List.mem_append.1 hx with hx | hx
  · exact ih.1 x hx
  · rw [List.mem_singleton.1 hx]
    exact hanswer

theorem recorder_close_ne_closed (r : Recorder) : r.close.result ≠ .error .closed := by
  unfold close
  cases r.stream with
  | none => simp
  | some doc =>
    have hdoc := doc.close_ne_closed
    dsimp only
    cases hresult : doc.close.result with
    | ok done => simp
    | error error => simpa [hresult] using hdoc

/-- **The checks hold.** For every output and every sequence of calls that leave the document to
its user, a document that checks itself answers as one that does not, its output is there, and no
more of the head has been accepted than there is, also between the single offers by which the head
is written. So neither the writing of the head, nor closing, nor taking the output back meets a
closed document; a call to write does exactly if the document has been closed, and then nothing
changes. In no session with a recorder does a record of an event or of an issue, or the closing at
the end, meet a closed document. -/
theorem checks_hold (metadata : Metadata) (out : Output) {calls : List Document.Call}
    (h : ∀ call ∈ calls, call.leavesDocument = true) (settings : RecorderSettings)
    (output : Option Output) (requests : List Request) :
    let doc := Run.final Document.perform (.start metadata out) calls
    let g := Run.final Document.Guarded.perform (.start metadata out) calls
    ((Run.history Document.Guarded.perform (.start metadata out) calls).map Exchange.answer =
        (Run.history Document.perform (.start metadata out) calls).map Exchange.answer ∧
      g = doc.guard) ∧
    (g.output?.isSome = true ∧ g.headAccepted ≤ g.head.length ∧
      (∀ turns, (Document.Guarded.offer^[turns] g).output?.isSome = true ∧
        (Document.Guarded.offer^[turns] g).headAccepted ≤
          (Document.Guarded.offer^[turns] g).head.length) ∧
      ∃ turns, g.sendHead.2 = Document.Guarded.offer^[turns] g) ∧
    (g.sendHead.1 ≠ .error .closed ∧ g.close.1 ≠ .error .closed ∧ g.finish.1 ≠ .error .closed) ∧
    (∀ element?, ((g.write element?).1 = .error .closed ↔ .close ∈ calls) ∧
      (.close ∈ calls → (g.write element?).2 = g)) ∧
    (∀ x ∈ Run.history answer (start metadata settings output) requests, ¬x.answer.IsClosed) ∧
    (Run.final answer (start metadata settings output) requests).close.result ≠
      .error .closed := by
  intro doc g
  obtain ⟨hanswers, hg, hsound⟩ := Document.guard_final metadata out h
  have hclosed := Document.closed_final_iff metadata out h
  change g = doc.guard at hg
  rw [hg]
  refine ⟨⟨hanswers, rfl⟩,
    ⟨hsound.output, hsound.le, fun turns => ?_, doc.exists_offers⟩, ⟨?_, ?_, ?_⟩,
    fun element? => ?_, (ready_final metadata settings output requests).1,
    recorder_close_ne_closed _⟩
  · exact ⟨(hsound.offers turns).output, (hsound.offers turns).le⟩
  · rw [Document.guard_sendHead]
    exact Document.mapError_io_ne_closed _
  · rw [Document.guard_close]
    exact doc.close_ne_closed
  · rw [Document.guard_finish]
    exact doc.finish_ne_closed
  · obtain ⟨hiff, hsame⟩ := doc.write_eq_closed_iff element?
    rw [Document.guard_write, ← hclosed]
    exact ⟨hiff, fun hdoc => congrArg Document.guard (hsame hdoc)⟩

/-- A document on an output that fails in the middle of the head is closed; a recorder is asked to
record an error on the same output. -/
theorem checks_hold_torn_head :
    (∀ call ∈ [Document.Call.write (Entry.ofText "a").element?, .close],
      call.leavesDocument = true) ∧
    (Run.final Document.Guarded.perform
        (.start ⟨⟨"k", "1"⟩⟩ { rules := [.accept 5, .fail ⟨"disk full", false⟩] })
        [.write (Entry.ofText "a").element?, .close]).finish.1 ≠ .error .closed ∧
    ((Run.final Document.Guarded.perform
        (.start ⟨⟨"k", "1"⟩⟩ { rules := [.accept 5, .fail ⟨"disk full", false⟩] })
        [.write (Entry.ofText "a").element?, .close]).write (Entry.ofText "b").element?).1 =
      .error .closed := by
  have hleaves : ∀ call ∈ [Document.Call.write (Entry.ofText "a").element?, .close],
      call.leavesDocument = true := by simp [Document.Call.leavesDocument]
  obtain ⟨-, -, ⟨-, -, hfinish⟩, hwrite, -⟩ :=
    checks_hold ⟨⟨"k", "1"⟩⟩ { rules := [.accept 5, .fail ⟨"disk full", false⟩] } hleaves {} none []
  exact ⟨hleaves, hfinish, (hwrite _).1.2 (by simp)⟩

end Recorder

end DiagnosticReport
