import DiagnosticReport.Proofs.Diagnostic.Subject
import DiagnosticReport.Proofs.Recorder.ReplayedLog

/-!
# The order of events

Which of several warnings with the same key is reported depends on their order; what is reported of
each category does not. The reason is that the key of a warning decides its category
(`Category.ofText_warningSubject`), so a category has as many findings as it has keys among the
warnings that are to be reported once, and events among the others (`Recorder.countP_reviewed`).

* `Recorder.keys_final_review_perm` : the same warnings are reported in any order.
* `Replay.recordAll_perm` : **recording events in another order** comes to the same counts.
-/

namespace DiagnosticReport

namespace Recorder

variable {w : ReportedWarnings} {events events' : List Event}

/-! ### The warnings reported -/

theorem keys_final_review_perm (hw : w.keys.Nodup) (hperm : events.Perm events') :
    (Run.final review w (events.map .record)).keys.Perm
      (Run.final review w (events'.map .record)).keys := by
  rw [List.perm_ext_iff_of_nodup (nodup_keys_final_review hw events)
    (nodup_keys_final_review hw events')]
  intro k
  rw [mem_keys_final_review, mem_keys_final_review, (hperm.filterMap _).mem_iff]

/-! ### Findings by category -/

section Counting

variable {q : Entry → Bool} {p : Category → Bool}

/-- A finding that an event leads to at once, since it is not to be reported once only. -/
def countsAlways (p : Category → Bool) (event : Event) : Bool :=
  event.severity != .message && event.origin.isNone && p (.ofText event.text)

/-- An event adds one to the findings of its category exactly if it adds one to the keys of that
category or is not to be reported once only. -/
theorem countP_review (h : ∀ text, q (.ofText text) = p (.ofText text)) (w : ReportedWarnings)
    (event : Event) :
    (review w (.record event)).1.toList.countP q +
        w.keys.countP (fun k => p (.ofText k.subject)) =
      (review w (.record event)).2.keys.countP (fun k => p (.ofText k.subject)) +
        [event].countP (countsAlways p) := by
  rcases review_cases w event with ⟨hpassed, heq⟩ | ⟨hplain, hnew, heq⟩
  · have hnot : countsAlways p event = false := by
      rcases hpassed with hmessage | ⟨k, hkey, -⟩
      · simp [countsAlways, hmessage]
      · obtain ⟨origin, horigin, -⟩ := Event.key?_eq_some_iff.1 hkey
        simp [countsAlways, horigin]
    simp [heq, hnot]
  · rw [heq]
    cases horigin : event.origin with
    | none =>
      have hcounts : countsAlways p event = q (.ofText event.text) := by
        simp [countsAlways, hplain, horigin, h]
      simp [hcounts, Nat.add_comm]
    | some origin =>
      have hnot : countsAlways p event = false := by simp [countsAlways, horigin]
      -- the key that comes in counts as the finding does, since both have the same category
      have hkey : WarningKey.of origin event.text ∉ w.keys :=
        hnew _ (Event.key?_eq_some_iff.2 ⟨origin, horigin, rfl⟩)
      have hkeys : (w.insert origin event.text).keys = .of origin event.text :: w.keys :=
        List.insert_of_not_mem hkey
      have hsubject : p (.ofText (WarningKey.of origin event.text).subject) =
          q (.ofText event.text) := by
        rw [h, WarningKey.of, Category.ofText_warningSubject]
      rw [Option.elim_some, hkeys, List.countP_cons, hsubject]
      simp [hnot, Nat.add_comm]

/-- **The findings of some categories** are counted by the keys of these categories that are new,
and the events that are not to be reported once only. -/
theorem countP_reviewed (h : ∀ text, q (.ofText text) = p (.ofText text)) (w : ReportedWarnings)
    (events : List Event) :
    (reviewed w (events.map .record)).countP q +
        w.keys.countP (fun k => p (.ofText k.subject)) =
      (Run.final review w (events.map .record)).keys.countP (fun k => p (.ofText k.subject)) +
        events.countP (countsAlways p) := by
  induction events generalizing w with
  | nil => simp [reviewed]
  | cons event events ih =>
    have hone := countP_review h w event
    have hrest := ih (review w (.record event)).2
    rw [List.countP_singleton] at hone
    rw [List.map_cons, reviewed_cons, List.countP_append, Run.final_cons, List.countP_cons]
    omega

theorem countP_reviewed_perm (h : ∀ text, q (.ofText text) = p (.ofText text))
    (hperm : events.Perm events') :
    (reviewed {} (events.map .record)).countP q = (reviewed {} (events'.map .record)).countP q := by
  have hcount := countP_reviewed h {} events
  have hcount' := countP_reviewed h {} events'
  have hkeys := (keys_final_review_perm (w := {}) List.nodup_nil hperm).countP_eq
    (fun k => p (.ofText k.subject))
  have halways := hperm.countP_eq (countsAlways p)
  omega

end Counting

end Recorder

/-! ### Two recorders -/

namespace Replay

open Recorder

theorem countP_isSome_expected (w : ReportedWarnings) (events : List Event) :
    (expected w events).countP Option.isSome = (reviewed w (events.map .record)).length := by
  rw [← filterMap_expected, List.length_filterMap_eq_countP]
  rfl

/-- **Recording events in another order.** Let the same events be recorded in two orders, by
recorders that are set alike and have no document, or one on an output that never fails. Then no
call fails, the same warnings are reported, as many repeats are passed over and as many findings
are made, and as many of them have any one identifier. -/
theorem recordAll_perm (metadata : Metadata) (settings : RecorderSettings)
    {output output' : Option Output} (h : ∀ out ∈ output, out.Reliable)
    (h' : ∀ out ∈ output', out.Reliable) {events events' : List Event}
    (hperm : events.Perm events') :
    ∃ found found' r r',
      recordAll (start metadata settings output) events = (.ok found, r) ∧
      recordAll (start metadata settings output') events' = (.ok found', r') ∧
      r.reported.keys.Perm r'.reported.keys ∧ r.repeats = r'.repeats ∧
      found.countP Option.isSome = found'.countP Option.isSome ∧
      ∀ identifier, (found.filterMap id).countP (·.identifier? = some identifier) =
        (found'.filterMap id).countP (·.identifier? = some identifier) := by
  obtain ⟨hrun, hreported⟩ :=
    recordAll_of_undisturbed (undisturbed_start metadata settings h) events
  obtain ⟨hrun', hreported'⟩ :=
    recordAll_of_undisturbed (undisturbed_start metadata settings h') events'
  obtain ⟨-, hcount⟩ := recordAll_count hrun
  obtain ⟨-, hcount'⟩ := recordAll_count hrun'
  have hfindings : (expected {} events).countP Option.isSome =
      (expected {} events').countP Option.isSome := by
    have hall := countP_reviewed_perm (q := fun _ => true) (p := fun _ => true) (fun _ => rfl) hperm
    simpa [countP_isSome_expected] using hall
  have hmessages := hperm.countP_eq (fun e => decide (e.severity = .message))
  refine ⟨_, _, _, _, hrun, hrun', ?_, ?_, hfindings, fun identifier => ?_⟩
  · rw [hreported, hreported']
    exact keys_final_review_perm List.nodup_nil hperm
  · -- findings, repeats and plain messages are all events, and two of the three are the same
    have hlength := hperm.length_eq
    have hstart : (start metadata settings output).repeats =
        (start metadata settings output').repeats := rfl
    have hfresh : (start metadata settings output).reported = {} := rfl
    have hfresh' : (start metadata settings output').reported = {} := rfl
    rw [hfresh] at hcount
    rw [hfresh'] at hcount'
    omega
  · rw [filterMap_expected, filterMap_expected]
    refine countP_reviewed_perm (p := fun c => decide (c.identifier = identifier)) ?_ hperm
    intro text
    simp only [Entry.identifier?_ofText, Option.some_inj]

/-- Two calls of an external function from one place, of which the first is reported: in one order
with one text, in the other with the other. -/
example :
    expected {} [.onceWarning (.named "f") "calling external: f(0)",
        .onceWarning (.named "f") "calling external: f(1)"] ≠
      expected {} [.onceWarning (.named "f") "calling external: f(1)",
        .onceWarning (.named "f") "calling external: f(0)"] := by
  decide +kernel

/-- The same two calls with a plain message and an error between them, streamed to an output that
never fails in one order, and without a document in the other. -/
theorem recordAll_perm_reversed :
    (∀ out ∈ some Output.flawless, out.Reliable) ∧ (∀ out ∈ (none : Option Output), out.Reliable) ∧
    [.onceWarning (.named "f") "calling external: f(0)", { severity := .message, text := "done" },
      { severity := .error, text := "execve" },
      .onceWarning (.named "f") "calling external: f(1)"].Perm
      [.onceWarning (.named "f") "calling external: f(1)",
        { severity := .error, text := "execve" }, { severity := .message, text := "done" },
        Event.onceWarning (.named "f") "calling external: f(0)"] ∧
    ∃ found found' r r',
      recordAll (start ⟨⟨"k", "1"⟩⟩ {} (some .flawless))
        [.onceWarning (.named "f") "calling external: f(0)",
          { severity := .message, text := "done" }, { severity := .error, text := "execve" },
          .onceWarning (.named "f") "calling external: f(1)"] = (.ok found, r) ∧
      recordAll (start ⟨⟨"k", "1"⟩⟩ {} none)
        [.onceWarning (.named "f") "calling external: f(1)",
          { severity := .error, text := "execve" }, { severity := .message, text := "done" },
          .onceWarning (.named "f") "calling external: f(0)"] = (.ok found', r') ∧
      r.reported.keys.Perm r'.reported.keys ∧ r.repeats = r'.repeats ∧
      (found.filterMap id).countP (·.identifier? = some "calling-external") =
        (found'.filterMap id).countP (·.identifier? = some "calling-external") := by
  have hflawless : ∀ out ∈ some Output.flawless, out.Reliable := by
    rintro out ⟨⟩
    exact Output.reliable_flawless
  have hnone : ∀ out ∈ (none : Option Output), out.Reliable := by simp
  have hperm : [.onceWarning (.named "f") "calling external: f(0)",
      { severity := .message, text := "done" }, { severity := .error, text := "execve" },
      .onceWarning (.named "f") "calling external: f(1)"].Perm
      [.onceWarning (.named "f") "calling external: f(1)",
        { severity := .error, text := "execve" }, { severity := .message, text := "done" },
        Event.onceWarning (.named "f") "calling external: f(0)"] :=
    (List.reverse_perm _).symm
  obtain ⟨found, found', r, r', hrun, hrun', hkeys, hrepeats, -, hcounts⟩ :=
    recordAll_perm ⟨⟨"k", "1"⟩⟩ {} hflawless hnone hperm
  exact ⟨hflawless, hnone, hperm, found, found', r, r', hrun, hrun', hkeys, hrepeats, hcounts _⟩

end Replay

end DiagnosticReport
