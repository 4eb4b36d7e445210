import DiagnosticReport.Proofs.Recorder.StreamedReport
import Mathlib.Data.List.Nodup

/-!
# What a review makes of events

If nothing is lost on the way to an output, the warnings reported before an event decide what
becomes of it (`Recorder.review`): it is passed over, or its finding is new and its key, if it has
one, is put into the record (`Recorder.review_cases`). So the record at the end of a sequence of
events is known without a look at their order: it holds the keys of those that are reported, each
once (`Recorder.mem_keys_final_review`, `Recorder.nodup_keys_final_review`).

Nothing is lost by a recorder without a document or with one on a reliable output
(`Recorder.Undisturbed`); it records every event as reviewed (`Recorder.Undisturbed.record`).
-/

namespace DiagnosticReport

/-- The key that an event leaves in the record of reported warnings. -/
def Event.reportedKey? (e : Event) : Option WarningKey :=
  if e.severity = .message then none else e.key?

theorem Event.reportedKey?_eq_some_iff {e : Event} {k : WarningKey} :
    e.reportedKey? = some k ↔ e.severity ≠ .message ∧ e.key? = some k := by
  rw [reportedKey?, Option.ite_none_left_eq_some]

namespace Recorder

variable {w : ReportedWarnings} {events : List Event}

/-- What the review makes of an event: it is passed over, or its finding is new. -/
theorem review_cases (w : ReportedWarnings) (event : Event) :
    ((event.severity = .message ∨ ∃ k, event.key? = some k ∧ k ∈ w.keys) ∧
      review w (.record event) = (none, w)) ∨
    (event.severity ≠ .message ∧ (∀ k, event.key? = some k → k ∉ w.keys) ∧
      review w (.record event) =
        (some (.ofText event.text), event.origin.elim w fun o => w.insert o event.text)) := by
  by_cases hplain : event.severity = .message
  · have hmessage := Severity.isReportable_eq_false_iff.2 hplain
    exact .inl ⟨.inl hplain, review_of_message hmessage w⟩
  · have hreportable : event.severity.isReportable = true := by
      rwa [← Bool.not_eq_false, Severity.isReportable_eq_false_iff]
    cases horigin : event.origin with
    | none =>
      refine .inr ⟨hplain, by simp [Event.key?, horigin], ?_⟩
      simp [review, hreportable, horigin]
    | some origin =>
      have hkey : event.key? = some (.of origin event.text) := by
        rw [Event.key?, horigin, Option.map_some]
      by_cases hmem : WarningKey.of origin event.text ∈ w.keys
      · refine .inl ⟨.inr ⟨_, hkey, hmem⟩, ?_⟩
        have hcontains := ReportedWarnings.contains_iff.2 hmem
        simp [review, horigin, hcontains]
      · refine .inr ⟨hplain, ?_, ?_⟩
        · rintro k hk
          rw [hkey] at hk
          rwa [← Option.some.inj hk]
        · have hcontains : w.contains origin event.text = false := by
            rwa [Bool.eq_false_iff, Ne, ReportedWarnings.contains_iff]
          simp [review, hreportable, horigin, hcontains]

/-! ### The record at the end -/

/-- An event that is reported leaves its key in the record, whether or not it led to a finding. -/
theorem mem_keys_review {event : Event} {k : WarningKey} :
    k ∈ (review w (.record event)).2.keys ↔ k ∈ w.keys ∨ event.reportedKey? = some k := by
  rw [Event.reportedKey?_eq_some_iff]
  rcases review_cases w event with ⟨hpassed, heq⟩ | ⟨hplain, -, heq⟩
  · rw [heq]
    refine ⟨.inl, fun hk => hk.elim id fun ⟨hplain, hkey⟩ => ?_⟩
    obtain ⟨k', hkey', hmem⟩ := hpassed.resolve_left hplain
    rw [hkey] at hkey'
    rwa [Option.some.inj hkey']
  · rw [heq, Event.key?]
    cases event.origin with
    | none => simp
    | some origin => simp [hplain, ReportedWarnings.mem_keys_insert, or_comm, eq_comm]

theorem nodup_keys_review (hw : w.keys.Nodup) (event : Event) :
    (review w (.record event)).2.keys.Nodup := by
  rcases review_cases w event with ⟨-, heq⟩ | ⟨-, -, heq⟩
  · rwa [heq]
  · rw [heq]
    cases event.origin with
    | none => exact hw
    | some origin => exact hw.insert

/-- **The warnings reported after some events** are those reported before and those among the
events. -/
theorem mem_keys_final_review {k : WarningKey} :
    k ∈ (Run.final review w (events.map .record)).keys ↔
      k ∈ w.keys ∨ k ∈ events.filterMap Event.reportedKey? := by
  induction events generalizing w with
  | nil => simp
  | cons event events ih =>
    rw [List.map_cons, Run.final_cons, ih, mem_keys_review, or_assoc]
    simp [eq_comm]

theorem nodup_keys_final_review (hw : w.keys.Nodup) (events : List Event) :
    (Run.final review w (events.map .record)).keys.Nodup := by
  induction events generalizing w with
  | nil => exact hw
  | cons event events ih => exact ih (nodup_keys_review hw event)

/-! ### Recorders that lose nothing -/

/-- A recorder that has no document, or one on a reliable output. -/
def Undisturbed (r : Recorder) : Prop :=
  r.stream = none ∨ ∃ metadata held entries, r.Streams metadata held entries

theorem undisturbed_start (metadata : Metadata) (settings : RecorderSettings)
    {output : Option Output} (h : ∀ out ∈ output, out.Reliable) :
    (start metadata settings output).Undisturbed := by
  cases output with
  | none => exact .inl rfl
  | some out =>
    have hreliable := h out rfl
    exact .inr ⟨_, _, _, _, rfl, Document.Carries.start metadata hreliable⟩

theorem deliver_of_stream_eq_none {r : Recorder} (h : r.stream = none) (entry : Entry)
    (kept : Bool) :
    (r.deliver entry kept).1 = .ok () ∧ (r.deliver entry kept).2.stream = none := by
  have hstream : (if kept then r.keep entry else r).stream = none := by
    cases kept <;> exact h
  rw [deliver, send, hstream]
  exact ⟨rfl, hstream⟩

/-- **An event that nothing disturbs** is recorded as reviewed. -/
theorem Undisturbed.record {r : Recorder} (h : r.Undisturbed) (event : Event) :
    (r.record event).result = .ok (review r.reported (.record event)).1 ∧
      (r.record event).next.reported = (review r.reported (.record event)).2 ∧
      (r.record event).next.Undisturbed := by
  rcases h with hnone | ⟨metadata, held, entries, hstreams⟩
  · have hrecording := r.recording_record event
    generalize (r.record event).result = result at hrecording ⊢
    generalize (r.record event).next = next at hrecording ⊢
    obtain ⟨hdelivered, hstream⟩ :=
      deliver_of_stream_eq_none hnone (.ofText event.text) r.settings.aggregateEvents
    cases hrecording with
    | message plain =>
      rw [review_of_message plain]
      exact ⟨rfl, rfl, .inl hnone⟩
    | repeated reportable old =>
      rw [review_of_repeat old]
      exact ⟨rfl, rfl, .inl hnone⟩
    | found reportable new =>
      rw [review_of_new reportable new, reported_markReported, reported_markReported,
        reported_deliver]
      exact ⟨rfl, rfl, .inl ((stream_markReported _ event).trans hstream)⟩
    | failed reportable new delivered =>
      -- there is nothing that could fail
      rw [hdelivered] at delivered
      cases delivered
  · obtain ⟨hresult, hreported, hnext⟩ := hstreams.record event
    exact ⟨hresult, hreported, .inr ⟨_, _, _, hnext⟩⟩

theorem Undisturbed.final {r : Recorder} (h : r.Undisturbed) (events : List Event) :
    (Run.final answer r (events.map .record)).Undisturbed := by
  induction events generalizing r with
  | nil => exact h
  | cons event events ih =>
    obtain ⟨-, -, hnext⟩ := h.record event
    exact ih hnext

theorem Undisturbed.close {r : Recorder} (h : r.Undisturbed) :
    r.close.result = .ok r.analysis := by
  rcases h with hnone | ⟨metadata, held, entries, hstreams⟩
  · rw [Recorder.close, hnone]
  · exact hstreams.close.1

end Recorder

end DiagnosticReport
