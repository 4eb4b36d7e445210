import DiagnosticReport.Proofs.Diagnostic.Subject
import DiagnosticReport.Proofs.Recorder.WarnOnce

/-!
# What suppressed repeats repeat

A warning is passed over as a repeat because its key has been reported. The key has been put into
the record by one turn of the session (`Recorder.EntersKey`), and unless keys are entered by other
means, this turn recorded an event with the same key (`Recorder.exists_event_of_entersKey`). Since
the key decides the category, whoever reads the report finds the repeat under the category of the
event that was reported (`Recorder.repeats_category`).
-/

namespace DiagnosticReport

namespace Recorder

variable {r : Recorder} {requests : List Request} {k : WarningKey}

/-- A turn that puts a key into the record. -/
structure EntersKey (k : WarningKey) (x : Turn) : Prop where
  /-- The key was not in the record. -/
  new : k ∉ x.before.reported.keys
  /-- Now it is. -/
  known : k ∈ x.after.reported.keys

/-- **Every key in the record** was there at the beginning, or a turn has put it there. -/
theorem exists_entersKey (h : k ∈ (Run.final answer r requests).reported.keys)
    (hstart : k ∉ r.reported.keys) :
    ∃ y ∈ Run.history answer r requests, EntersKey k y := by
  induction requests generalizing r with
  | nil => exact absurd h hstart
  | cons request requests ih =>
    by_cases hknown : k ∈ (r.answer request).2.reported.keys
    · exact ⟨_, List.mem_cons_self, hstart, hknown⟩
    · obtain ⟨y, hy, henters⟩ := ih h hknown
      exact ⟨y, List.mem_cons_of_mem _ hy, henters⟩

theorem mem_keys_of_mem_history {y : Turn} (hy : y ∈ Run.history answer r requests)
    (h : k ∈ r.reported.keys) : k ∈ y.before.reported.keys := by
  obtain ⟨pre, post, hsplit⟩ := List.append_of_mem hy
  obtain ⟨earlier, request, later, -, -, rfl, -⟩ := Run.history_eq_append_cons hsplit
  exact (mem_keys_final k).2 (.inl h)

/-- **No key is put into the record twice.** -/
theorem entersKey_unique {pre post : List Turn} {x y : Turn}
    (hrun : Run.history answer r requests = pre ++ x :: post) (hx : EntersKey k x)
    (hy : y ∈ post) : ¬ EntersKey k y := by
  obtain ⟨earlier, request, later, -, -, rfl, rfl⟩ := Run.history_eq_append_cons hrun
  exact fun henters => henters.new (mem_keys_of_mem_history hy hx.known)

/-- Unless the key was entered by other means, it was that of an event. -/
theorem exists_event_of_entersKey {y : Turn} (hy : y ∈ Run.history answer r requests)
    (henter : ∀ origin text, Request.enter origin text ∉ requests) (h : EntersKey k y) :
    ∃ event, y.input = .record event ∧ event.key? = some k := by
  have hinputs : (Run.history answer r requests).map Exchange.input = requests :=
    Run.map_input_history requests
  have hinput : y.input ∈ requests := hinputs ▸ List.mem_map_of_mem hy
  have hexchange := Run.eq_exchange_of_mem hy
  have hknown := h.known
  rw [hexchange, Run.exchange_after, mem_keys_answer, ← hexchange] at hknown
  have hestablishes := hknown.resolve_left h.new
  rcases hestablishes.input with ⟨event, hevent⟩ | ⟨origin, text, hentered, -⟩
  · rw [hexchange, hevent, establishes_record_iff] at hestablishes
    exact ⟨event, hevent, hestablishes.1⟩
  · exact absurd (hentered ▸ hinput) (henter origin text)

theorem category_eq_of_key?_eq {event event' : Event} (h : event.key? = some k)
    (h' : event'.key? = some k) : Category.ofText event.text = Category.ofText event'.text := by
  have hsubject : ∀ e : Event, e.key? = some k → warningSubject e.text = k.subject := by
    intro e he
    obtain ⟨origin, -, rfl⟩ := Option.map_eq_some_iff.1 he
    rfl
  exact Category.ofText_eq_of_warningSubject_eq ((hsubject event h).trans (hsubject event' h').symm)

theorem exists_key_of_passesRepeat {event : Event}
    (h : passesRepeat (Run.exchange answer r (.record event)) = true) :
    ∃ k, event.key? = some k ∧ k ∈ r.reported.keys := by
  obtain ⟨hresult, hreportable, -⟩ := passesRepeat_record_iff.1 h
  refine ((record_eq_none_iff r event).1 hresult).resolve_left fun hmessage => ?_
  rw [Severity.isReportable_eq_false_iff.2 hmessage] at hreportable
  cases hreportable

/-- **Keys and categories agree.**

* The subject of a text is that of the calls of external functions exactly if its category is.
* Texts with the same subject have the same category, and they are the same, or both tell of the
  call of an external function.
* Whatever the output does and however the recorder is set, let no key be entered by other means
  than events. If an event is passed over as a repeat, then its key has been put into the record by
  one turn before, which recorded an event with this key, and the two events have the same
  category, in identifier and class. -/
theorem repeats_category (metadata : Metadata) (settings : RecorderSettings)
    (output : Option Output) {requests : List Request}
    (henter : ∀ origin text, Request.enter origin text ∉ requests) :
    (∀ text, warningSubject text = "calling external" ↔
      Category.ofText text = .callingExternal) ∧
    (∀ a b, (warningSubject a = warningSubject b → Category.ofText a = Category.ofText b) ∧
      (warningSubject a = warningSubject b ↔
        a = b ∨ "calling external".toList <+: a.toList ∧ "calling external".toList <+: b.toList)) ∧
    ∀ pre x post event,
      Run.history answer (start metadata settings output) requests = pre ++ x :: post →
      x.input = .record event → passesRepeat x = true →
      ∃ k, event.key? = some k ∧ ∃ before y after earlier, pre = before ++ y :: after ∧
        EntersKey k y ∧ (∀ z ∈ before ++ after ++ x :: post, ¬ EntersKey k z) ∧
        y.input = .record earlier ∧ earlier.key? = some k ∧
        (Category.ofText earlier.text).identifier = (Category.ofText event.text).identifier ∧
        (Category.ofText earlier.text).findingClass = (Category.ofText event.text).findingClass := by
  refine ⟨fun text => ?_, fun a b => ⟨Category.ofText_eq_of_warningSubject_eq,
    warningSubject_eq_iff⟩, ?_⟩
  · rw [Category.ofText_eq_callingExternal_iff]
    exact warningSubject_eq_opening_iff
  · intro pre x post event hrun hinput hrepeat
    obtain ⟨is₁, request, is₂, -, rfl, rfl, -⟩ := Run.history_eq_append_cons hrun
    obtain rfl : request = .record event := hinput
    obtain ⟨k, hkey, hknown⟩ := exists_key_of_passesRepeat hrepeat
    obtain ⟨y, hy, henters⟩ := exists_entersKey hknown (by simp [start])
    obtain ⟨before, after, hsplit⟩ := List.append_of_mem hy
    rw [hsplit] at hrun ⊢
    rw [List.append_assoc, List.cons_append] at hrun
    have hmem : y ∈ Run.history answer (start metadata settings output) requests := by
      simp [hrun]
    obtain ⟨earlier, hearlier, hkey'⟩ := exists_event_of_entersKey hmem henter henters
    have hcategory := category_eq_of_key?_eq hkey' hkey
    refine ⟨k, hkey, before, y, after, earlier, rfl, henters, ?_, hearlier, hkey',
      congrArg _ hcategory, congrArg _ hcategory⟩
    intro z hz hzenters
    rw [List.append_assoc] at hz
    rcases List.mem_append.1 hz with hz | hz
    · -- then the later turn would have put the key into the record again
      obtain ⟨before₁, before₂, rfl⟩ := List.append_of_mem hz
      rw [List.append_assoc, List.cons_append] at hrun
      exact entersKey_unique hrun hzenters (by simp) henters
    · exact entersKey_unique hrun henters hz hzenters

/-- Two calls of an external function from one place, of which the first is recorded twice. -/
def callsFromOnePlace : List Request :=
  ["calling external: f(0)", "calling external: f(0)", "calling external: f(1)"].map fun text =>
    .record (.onceWarning (.named "f.c") text)

/-- On an output that fails once, the first call is reported when it is recorded again, and the
second call is a repeat of it. -/
theorem repeats_category_retried :
    (∀ origin text, Request.enter origin text ∉ callsFromOnePlace) ∧
    ∃ pre x, Run.history answer (start ⟨⟨"k", "1"⟩⟩ {}
        (some { rules := [.fail ⟨"disk full", false⟩] })) callsFromOnePlace = pre ++ [x] ∧
      x.input = .record (.onceWarning (.named "f.c") "calling external: f(1)") ∧
      passesRepeat x = true ∧ ∃ y ∈ pre, ∃ k earlier, EntersKey k y ∧ y.input = .record earlier ∧
        (Category.ofText earlier.text).identifier =
          (Category.ofText "calling external: f(1)").identifier := by
  have henter : ∀ origin text, Request.enter origin text ∉ callsFromOnePlace := by
    simp [callsFromOnePlace]
  obtain ⟨-, -, hrepeats⟩ := repeats_category ⟨⟨"k", "1"⟩⟩ {}
    (some { rules := [.fail ⟨"disk full", false⟩] }) henter
  have hsplit : Run.history answer (start ⟨⟨"k", "1"⟩⟩ {}
      (some { rules := [.fail ⟨"disk full", false⟩] })) callsFromOnePlace = [_, _] ++ [_] := rfl
  have hrepeat : passesRepeat (Run.exchange answer (Run.final answer (start ⟨⟨"k", "1"⟩⟩ {}
      (some { rules := [.fail ⟨"disk full", false⟩] })) (callsFromOnePlace.take 2))
      (.record (.onceWarning (.named "f.c") "calling external: f(1)"))) = true := by
    decide +kernel
  obtain ⟨k, -, before, y, after, earlier, hpre, henters, -, hearlier, -, hidentifier, -⟩ :=
    hrepeats _ _ _ _ hsplit rfl hrepeat
  exact ⟨henter, _, _, hsplit, rfl, hrepeat, y, by simp [hpre], k, earlier, henters, hearlier,
    hidentifier⟩

end Recorder

end DiagnosticReport
