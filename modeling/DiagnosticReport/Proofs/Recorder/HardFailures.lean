import DiagnosticReport.Proofs.Recorder.Session
import DiagnosticReport.Proofs.Stream.HardStops
import Mathlib.Data.Option.Defs

/-!
# What can be seen of an output through a recorder

A recorder uses its output only through its document. So two recorders that are the same but for
the outputs of their documents, and whose outputs fail alike (`Output.FailsLike`), stay so as long
as they are asked for the same (`Recorder.Alike.answer`).

* `Output.FailsLike.indistinguishable` : for every run of a document or of a recorder, all that
  matters about the output is where it fails for good. How it splits what it accepts over calls,
  and how often it interrupts them, cannot be seen.
-/

namespace DiagnosticReport

namespace Recorder

/-- Two recorders that are the same but for the outputs of their documents, and these are
alike. -/
structure Alike (held held' : List UInt8) (r r' : Recorder) : Prop where
  /-- All but the document is the same. -/
  frame : r' = { r with stream := r'.stream }
  /-- The documents are alike, if there are any. -/
  stream : Option.Rel (Document.Alike held held') r.stream r'.stream

variable {held held' : List UInt8} {r r' : Recorder}

theorem Alike.start {out out' : Output} (h : out.FailsLike out') (metadata : Metadata)
    (settings : RecorderSettings) :
    Alike out.bytes out'.bytes (Recorder.start metadata settings (some out))
      (Recorder.start metadata settings (some out')) :=
  ⟨rfl, .some (.start h metadata)⟩

namespace Alike

theorem exists_stream (h : Alike held held' r r') :
    ∃ stream', r' = { r with stream := stream' } ∧
      Option.Rel (Document.Alike held held') r.stream stream' :=
  ⟨r'.stream, h.frame, h.stream⟩

theorem send (h : Alike held held' r r') (entry : Entry) :
    SameAnswer (Alike held held') (r.send entry) (r'.send entry) := by
  obtain ⟨stream', rfl, hstream⟩ := h.exists_stream
  obtain ⟨settings, reported, analysis, stream, repeats⟩ := r
  cases hstream with
  | none => exact .intro h
  | @some doc doc' hdoc =>
    have hwrite := hdoc.write entry.element?
    unfold Recorder.send
    dsimp only
    generalize doc.write entry.element? = x at hwrite
    generalize doc'.write entry.element? = x' at hwrite
    obtain ⟨hdoc'⟩ := hwrite
    exact .intro ⟨rfl, .some hdoc'⟩

theorem deliver (h : Alike held held' r r') (entry : Entry) (kept : Bool) :
    SameAnswer (Alike held held') (r.deliver entry kept) (r'.deliver entry kept) := by
  have hkeep : Alike held held' (r.keep entry) (r'.keep entry) := by
    obtain ⟨stream', rfl, hstream⟩ := h.exists_stream
    exact ⟨rfl, hstream⟩
  cases kept with
  | false => exact h.send entry
  | true => exact hkeep.send entry

theorem markReported (h : Alike held held' r r') (event : Event) :
    Alike held held' (r.markReported event) (r'.markReported event) := by
  obtain ⟨stream', rfl, hstream⟩ := h.exists_stream
  unfold Recorder.markReported
  cases event.origin <;> exact ⟨rfl, hstream⟩

theorem record (h : Alike held held' r r') (event : Event) :
    SameAnswer (Alike held held') ((r.record event).result, (r.record event).next)
      ((r'.record event).result, (r'.record event).next) := by
  -- alike recorders differ in their documents only, so they take the same branches
  have hsettings : r'.settings = r.settings := by rw [h.frame]
  have hrepeat : r'.isRepeat event = r.isRepeat event := by rw [h.frame]; rfl
  have hdeliver := h.deliver (.ofText event.text) r.settings.aggregateEvents
  unfold Recorder.record
  rw [hsettings, hrepeat]
  dsimp only
  split_ifs
  · exact .intro h
  · obtain ⟨stream', rfl, hstream⟩ := h.exists_stream
    exact .intro ⟨rfl, hstream⟩
  generalize r.deliver (.ofText event.text) r.settings.aggregateEvents = x at hdeliver
  generalize r'.deliver (.ofText event.text) r.settings.aggregateEvents = x' at hdeliver
  obtain @⟨result, r₁, r₁', hr⟩ := hdeliver
  cases result with
  | ok => exact .intro (hr.markReported event)
  | error error =>
    have hsettings' : r₁'.settings = r₁.settings := by rw [hr.frame]
    dsimp only
    rw [hsettings']
    split_ifs
    · exact .intro (hr.markReported event)
    · exact .intro hr

/-- **A request to recorders that are alike** gets the same answer and leaves them alike. -/
theorem answer (h : Alike held held' r r') (request : Request) :
    SameAnswer (Alike held held') (r.answer request) (r'.answer request) := by
  cases request with
  | record event => exact (h.record event).map Answer.recorded
  | addIssue issue => exact (h.deliver (.issue issue) true).map Answer.added
  | drain | enter | ask =>
    obtain ⟨stream', rfl, hstream⟩ := h.exists_stream
    exact .intro ⟨rfl, hstream⟩

theorem close (h : Alike held held' r r') :
    SameAnswer (Alike held held') (r.close.result, r.close.next)
      (r'.close.result, r'.close.next) := by
  obtain ⟨stream', rfl, hstream⟩ := h.exists_stream
  obtain ⟨settings, reported, analysis, stream, repeats⟩ := r
  cases hstream with
  | none => exact .intro h
  | @some doc doc' hdoc =>
    have hclose := hdoc.close
    unfold Recorder.close
    dsimp only
    generalize doc.close = x at hclose
    generalize doc'.close = x' at hclose
    obtain ⟨result, next, notices⟩ := x
    obtain ⟨result', next', notices'⟩ := x'
    obtain ⟨hnext⟩ := hclose
    cases result with
    | ok => exact .intro ⟨rfl, .some hnext⟩
    | error error => exact .intro ⟨rfl, .some hnext⟩

theorem abandon (h : Alike held held' r r') :
    Alike held held' r.abandon.1 r'.abandon.1 := by
  obtain ⟨stream', rfl, hstream⟩ := h.exists_stream
  obtain ⟨settings, reported, analysis, stream, repeats⟩ := r
  cases hstream with
  | none => exact h
  | @some doc doc' hdoc =>
    have hnext : Document.Alike held held' doc.abandon.1 doc'.abandon.1 := by
      rw [Document.abandon_fst, Document.abandon_fst]
      exact hdoc.close.after
    exact ⟨rfl, .some hnext⟩

/-- **Runs of recorders that are alike** go alike. -/
theorem history (h : Alike held held' r r') (requests : List Request) :
    List.Forall₂ (fun x x' : Turn => x.answer = x'.answer ∧ Alike held held' x.after x'.after)
        (Run.history Recorder.answer r requests) (Run.history Recorder.answer r' requests) ∧
      Alike held held' (Run.final Recorder.answer r requests)
        (Run.final Recorder.answer r' requests) :=
  Run.sameAnswer_history (fun _ _ request hr => answer hr request) h requests

end Alike

end Recorder

namespace Output

/-- **Only hard failures of an output can be seen.** Let two outputs fail alike: their writes stop
for good behind the same bytes and for the same reasons, and the same flushes fail. How they split
what they accept over calls, and how often they interrupt calls in between, is left open. Then

* every run of a document goes on the one as on the other: each call gets the same answer, and
  afterwards the documents differ in nothing but their outputs, which have accepted the same bytes;
* so does every run of a recorder, and its closing or giving up;
* every loop that writes bytes call by call comes to rest after at most one call more than the
  output has rules, and always in the way that `WriteRule.send` tells. -/
theorem FailsLike.indistinguishable {out out' : Output} (h : out.FailsLike out')
    (metadata : Metadata) :
    (∀ calls : List Document.Call,
      List.Forall₂
        (fun x x' : Document.Turn =>
          x.answer = x'.answer ∧ Document.Alike out.bytes out'.bytes x.after x'.after)
        (Run.history Document.perform (Document.start metadata out) calls)
        (Run.history Document.perform (Document.start metadata out') calls)) ∧
    (∀ (settings : RecorderSettings) (requests : List Recorder.Request),
      let first := Recorder.start metadata settings (some out)
      let first' := Recorder.start metadata settings (some out')
      let last := Run.final Recorder.answer first requests
      let last' := Run.final Recorder.answer first' requests
      List.Forall₂
        (fun x x' : Recorder.Turn =>
          x.answer = x'.answer ∧ Recorder.Alike out.bytes out'.bytes x.after x'.after)
        (Run.history Recorder.answer first requests)
        (Run.history Recorder.answer first' requests) ∧
      last.close.result = last'.close.result ∧
      Recorder.Alike out.bytes out'.bytes last.close.next last'.close.next ∧
      Recorder.Alike out.bytes out'.bytes last.abandon.1 last'.abandon.1) ∧
    ∀ (rules : List WriteRule) (n : Nat),
      (∃ calls, calls ≤ rules.length + 1 ∧
        WriteRule.Retries rules n calls (WriteRule.send rules n)) ∧
      ∀ calls sending, WriteRule.Retries rules n calls sending →
        sending = WriteRule.send rules n := by
  refine ⟨fun calls => ?_, fun settings requests => ?_, fun rules n => ?_⟩
  · exact ((Document.Alike.start h metadata).history calls).1
  · obtain ⟨hhistory, hlast⟩ := (Recorder.Alike.start h metadata settings).history requests
    exact ⟨hhistory, hlast.close.answer_eq, hlast.close.after, hlast.abandon⟩
  · exact ⟨WriteRule.exists_retries rules n, fun calls sending hretries => hretries.eq_send⟩

/-- An output that takes eight bytes in two calls, with an interruption between them, and one that
takes them at once: then both accept nothing for one call, and a first finding is not streamed. -/
theorem FailsLike.indistinguishable_split :
    FailsLike
        { rules := [.accept 3, .fail ⟨"interrupted", true⟩, .accept 5, .refuse] }
        { rules := [.accept 8, .refuse], flushes := [none] } ∧
      ((Document.start ⟨⟨"k", "1"⟩⟩
        { rules := [.accept 3, .fail ⟨"interrupted", true⟩, .accept 5, .refuse] }).perform
          (.write (Entry.ofText "execve").element?)).1 = .error (.io ⟨"write zero", false⟩) ∧
      List.Forall₂
        (fun x x' : Document.Turn => x.answer = x'.answer ∧ Document.Alike [] [] x.after x'.after)
        (Run.history Document.perform (Document.start ⟨⟨"k", "1"⟩⟩
          { rules := [.accept 3, .fail ⟨"interrupted", true⟩, .accept 5, .refuse] })
          [.write (Entry.ofText "execve").element?, .write (Entry.ofText "halt").element?, .finish])
        (Run.history Document.perform (Document.start ⟨⟨"k", "1"⟩⟩
          { rules := [.accept 8, .refuse], flushes := [none] })
          [.write (Entry.ofText "execve").element?, .write (Entry.ofText "halt").element?,
            .finish]) := by
  have halike : FailsLike
      { rules := [.accept 3, .fail ⟨"interrupted", true⟩, .accept 5, .refuse] }
      { rules := [.accept 8, .refuse], flushes := [none] } := by
    refine ⟨?_, fun n => by cases n <;> rfl⟩
    exact (WriteRule.stops_interrupted [.accept 3] [.accept 5, .refuse] rfl).trans
      (WriteRule.stops_split [] [.refuse] 3 5)
  obtain ⟨hdocuments, -, -⟩ := halike.indistinguishable ⟨⟨"k", "1"⟩⟩
  exact ⟨halike, rfl, hdocuments _⟩

end Output

end DiagnosticReport
