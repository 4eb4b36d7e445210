import DiagnosticReport.Proofs.Recorder.Session

/-!
# Warnings are reported once

A warning that is to be reported once counts as reported when its finding was streamed, when it
was kept, or when its key was entered by other means. These are the turns of a session that
establish a key (`Recorder.Establishes`), and the record holds a key exactly if a turn has
established it (`Recorder.mem_keys_final`), however often the output failed in between. What
follows for sessions is `Recorder.warn_once`: no warning is reported twice, none is lost, and the
repeats are counted.
-/

namespace DiagnosticReport

namespace Recorder

/-! ### What a turn means for a key -/

/-- Whether an event with this key led to a finding. -/
def findsKey (k : WarningKey) (x : Turn) : Bool :=
  match x.input, x.answer with
  | .record event, .recorded (.ok (some _)) => event.key? == some k
  | _, _ => false

/-- Whether an event that is to be reported once was passed over as a repeat. -/
def passesRepeat (x : Turn) : Bool :=
  match x.input, x.answer with
  | .record event, .recorded (.ok none) => event.severity.isReportable && event.origin.isSome
  | _, _ => false

/-- A turn after which the warning with this key counts as reported. -/
inductive Establishes (x : Turn) (k : WarningKey) : Prop where
  /-- An event with this key led to a finding. -/
  | found (found : findsKey k x = true)
  /-- The finding of an event with this key was kept. -/
  | kept {event : Event} (input : x.input = .record event) (key : event.key? = some k)
      (aggregates : x.before.settings.aggregateEvents = true)
      (results : x.after.analysis.results = x.before.analysis.results ++ [.ofText event.text])
  /-- The key was entered. -/
  | entered {origin : Origin} {text : String} (input : x.input = .enter origin text)
      (key : k = .of origin text)

theorem findsKey_iff {k : WarningKey} {x : Turn} : findsKey k x = true ↔
    ∃ event finding, x.input = .record event ∧ x.answer = .recorded (.ok (some finding)) ∧
      event.key? = some k := by
  unfold findsKey
  split
  next event finding hinput hanswer => simp [hinput, hanswer]
  next hne =>
    refine ⟨fun h => (by cases h), ?_⟩
    rintro ⟨event, finding, hinput, hanswer, -⟩
    exact absurd hanswer (hne event finding hinput)

/-! ### Single turns -/

/-- **When an event leads to nothing.** It is a plain message, or its key has been reported. -/
theorem record_eq_none_iff (r : Recorder) (event : Event) :
    (r.record event).result = .ok none ↔
      event.severity = .message ∨ ∃ k, event.key? = some k ∧ k ∈ r.reported.keys := by
  rw [← Severity.isReportable_eq_false_iff, ← isRepeat_iff]
  have hrecording := r.recording_record event
  generalize (r.record event).result = result at hrecording ⊢
  generalize (r.record event).next = next at hrecording
  cases hrecording with
  | message plain => simp [plain]
  | repeated reportable old => simp [old]
  | found reportable new => simp [reportable, new]
  | failed reportable new => simp [reportable, new]

theorem establishes_record_iff {r : Recorder} {event : Event} {k : WarningKey} :
    Establishes (Run.exchange answer r (.record event)) k ↔ event.key? = some k ∧
      ((∃ finding, (r.record event).result = .ok (some finding)) ∨
        r.settings.aggregateEvents = true ∧
          (r.record event).next.analysis.results = r.analysis.results ++ [.ofText event.text]) := by
  constructor
  · intro h
    cases h with
    | found found =>
      obtain ⟨event', finding, hinput, hanswer, hkey⟩ := findsKey_iff.1 found
      cases hinput
      exact ⟨hkey, .inl ⟨finding, Answer.recorded.inj hanswer⟩⟩
    | kept input key aggregates results =>
      cases input
      exact ⟨key, .inr ⟨aggregates, results⟩⟩
    | entered input => cases input
  · rintro ⟨hkey, ⟨finding, hresult⟩ | ⟨haggregates, hresults⟩⟩
    · exact .found (findsKey_iff.2 ⟨event, finding, rfl, congrArg Answer.recorded hresult, hkey⟩)
    · exact .kept rfl hkey haggregates hresults

theorem Establishes.input {x : Turn} {k : WarningKey} (h : Establishes x k) :
    (∃ event, x.input = .record event) ∨
      ∃ origin text, x.input = .enter origin text ∧ k = .of origin text := by
  cases h with
  | found found =>
    obtain ⟨event, finding, hinput, -⟩ := findsKey_iff.1 found
    exact .inl ⟨event, hinput⟩
  | kept input => exact .inl ⟨_, input⟩
  | entered input key => exact .inr ⟨_, _, input, key⟩

theorem mem_keys_record (r : Recorder) (event : Event) (k : WarningKey) :
    k ∈ (r.record event).next.reported.keys ↔
      k ∈ r.reported.keys ∨ Establishes (Run.exchange answer r (.record event)) k := by
  rw [establishes_record_iff]
  have hrecording := r.recording_record event
  generalize (r.record event).result = result at hrecording ⊢
  generalize (r.record event).next = next at hrecording ⊢
  cases hrecording with
  | message plain => simp
  | repeated reportable old => simp
  | found reportable new delivered =>
    rw [mem_keys_markReported, reported_deliver]
    simp [or_comm]
  | failed reportable new delivered =>
    -- what was not streamed is marked only if it was kept
    cases haggregates : r.settings.aggregateEvents with
    | false => simp
    | true =>
      rw [if_pos rfl, mem_keys_markReported, reported_deliver, markReported_frame]
      simp [or_comm]

/-- **What a turn means for the record.** It puts into the record the key that it establishes,
and no other. -/
theorem mem_keys_answer (r : Recorder) (request : Request) (k : WarningKey) :
    k ∈ (r.answer request).2.reported.keys ↔
      k ∈ r.reported.keys ∨ Establishes (Run.exchange answer r request) k := by
  cases request with
  | record event => exact r.mem_keys_record event k
  | enter origin text =>
    rw [answer, enter, ReportedWarnings.enter, ReportedWarnings.mem_keys_insert, or_comm]
    refine or_congr_right ⟨.entered rfl, fun h => ?_⟩
    rcases h.input with ⟨event, hinput⟩ | ⟨origin', text', hinput, hkey⟩
    · cases hinput
    · cases hinput
      exact hkey
  | addIssue | drain | ask =>
    refine ⟨fun h => .inl (by simpa [answer, addIssue, drainResults] using h), fun h => ?_⟩
    rcases h with h | h
    · simpa [answer, addIssue, drainResults] using h
    · rcases h.input with ⟨event, hinput⟩ | ⟨origin', text', hinput, -⟩ <;> cases hinput

theorem passesRepeat_record_iff {r : Recorder} {event : Event} :
    passesRepeat (Run.exchange answer r (.record event)) = true ↔
      (r.record event).result = .ok none ∧ event.severity.isReportable = true ∧
        event.origin.isSome = true := by
  unfold passesRepeat
  rcases hresult : (r.record event).result with _ | _ | _ <;>
    simp [Run.exchange, answer, hresult]

theorem repeats_answer (r : Recorder) (request : Request) :
    (r.answer request).2.repeats =
      r.repeats + if passesRepeat (Run.exchange answer r request) then 1 else 0 := by
  cases request with
  | record event =>
    simp only [passesRepeat_record_iff, answer]
    have hrecording := r.recording_record event
    generalize (r.record event).result = result at hrecording ⊢
    generalize (r.record event).next = next at hrecording ⊢
    cases hrecording with
    | message plain => simp [plain]
    | repeated reportable old =>
      -- a repeat has a key, so it has an origin
      have horigin : event.origin.isSome = true := by
        obtain ⟨k, hkey, -⟩ := isRepeat_iff.1 old
        cases horigin : event.origin with
        | none => simp [Event.key?, horigin] at hkey
        | some origin => rfl
      simp [reportable, horigin]
    | found reportable new delivered =>
      rw [markReported_frame]
      simp
    | failed reportable new delivered =>
      rw [apply_ite repeats, markReported_frame]
      simp
  | addIssue | drain | enter | ask => simp [answer, addIssue, drainResults, enter, passesRepeat]

/-! ### Sessions -/

variable {r : Recorder} {requests : List Request}

/-- **The record holds the keys that have been established.** -/
theorem mem_keys_final (k : WarningKey) :
    k ∈ (Run.final answer r requests).reported.keys ↔
      k ∈ r.reported.keys ∨ ∃ x ∈ Run.history answer r requests, Establishes x k := by
  refine Run.induction (P := fun run r' =>
    k ∈ r'.reported.keys ↔ k ∈ r.reported.keys ∨ ∃ x ∈ run, Establishes x k)
    ?_ (fun run r' request ih => ?_) requests
  · simp
  · rw [mem_keys_answer, ih, or_assoc]
    simp [or_and_right, exists_or]

theorem repeats_final :
    (Run.final answer r requests).repeats =
      r.repeats + (Run.history answer r requests).countP passesRepeat := by
  refine Run.induction (P := fun run r' => r'.repeats = r.repeats + run.countP passesRepeat)
    rfl (fun run r' request ih => ?_) requests
  rw [repeats_answer, ih, List.countP_append, List.countP_singleton, Nat.add_assoc]

theorem not_mem_keys_of_findsKey {k : WarningKey} {request : Request}
    (h : findsKey k (Run.exchange answer r request) = true) : k ∉ r.reported.keys := by
  obtain ⟨event, finding, hinput, hanswer, hkey⟩ := findsKey_iff.1 h
  cases hinput
  intro hmem
  have hnone := (record_eq_none_iff r event).2 (.inr ⟨k, hkey, hmem⟩)
  have hsome : (r.record event).result = .ok (some finding) := Answer.recorded.inj hanswer
  rw [hnone] at hsome
  cases hsome

/-- **At most one finding for a key.** -/
theorem countP_findsKey_le_one (k : WarningKey) :
    (Run.history answer r requests).countP (findsKey k) ≤ 1 := by
  -- no finding while the key is not in the record, at most one when it is
  have hcount : (Run.history answer r requests).countP (findsKey k) ≤ 1 ∧
      (k ∉ (Run.final answer r requests).reported.keys →
        (Run.history answer r requests).countP (findsKey k) = 0) := by
    refine Run.induction (P := fun run r' => run.countP (findsKey k) ≤ 1 ∧
      (k ∉ r'.reported.keys → run.countP (findsKey k) = 0)) (by simp)
      (fun run r' request ih => ?_) requests
    obtain ⟨hle, hzero⟩ := ih
    rw [List.countP_append, List.countP_singleton, mem_keys_answer]
    cases hfinds : findsKey k (Run.exchange answer r' request) with
    | true =>
      have hrun := hzero (not_mem_keys_of_findsKey hfinds)
      refine ⟨by simp [hrun], fun hnot => ?_⟩
      exact absurd (Or.inr (Establishes.found hfinds)) hnot
    | false =>
      refine ⟨by simpa using hle, fun hnot => ?_⟩
      simpa using hzero fun hmem => hnot (.inl hmem)
  exact hcount.1

theorem mem_keys_of_establishes {k : WarningKey} {pre post : List Turn} {x y : Turn}
    (hrun : Run.history answer r requests = pre ++ x :: post) (hx : Establishes x k)
    (hy : y ∈ post) : k ∈ y.before.reported.keys := by
  obtain ⟨mid, rest, rfl⟩ := List.append_of_mem hy
  have hcut : Run.history answer r requests = (pre ++ x :: mid) ++ y :: rest := by
    rw [hrun, List.append_assoc, List.cons_append]
  obtain ⟨is₁, i, is₂, -, hpre, rfl, -⟩ := Run.history_eq_append_cons hcut
  rw [Run.exchange_before, mem_keys_final, ← hpre]
  exact .inr ⟨x, by simp, hx⟩

/-- **Warnings are reported once.** Whatever the output does and whatever is asked for in
between:

* an event leads to nothing exactly if it is a plain message or its key has been reported;
* there is at most one finding for a key, and later events with that key lead to nothing;
* an event with a key that leads to nothing comes after a turn that has established the key: a
  finding, an entry that was kept, or the key itself that was put in;
* the repeats are counted. -/
theorem warn_once (metadata : Metadata) (settings : RecorderSettings) (output : Option Output)
    (requests : List Request) :
    (∀ x ∈ Run.history answer (start metadata settings output) requests, ∀ event result,
      x.input = .record event → x.answer = .recorded result →
        (result = .ok none ↔
          event.severity = .message ∨ ∃ k, event.key? = some k ∧ k ∈ x.before.reported.keys)) ∧
    (∀ k, (Run.history answer (start metadata settings output) requests).countP (findsKey k) ≤ 1 ∧
      ∀ pre x post,
        Run.history answer (start metadata settings output) requests = pre ++ x :: post →
        findsKey k x = true → ∀ y ∈ post, ∀ event, y.input = .record event →
        event.key? = some k → y.answer = .recorded (.ok none)) ∧
    (∀ k pre x post event,
      Run.history answer (start metadata settings output) requests = pre ++ x :: post →
      x.input = .record event → event.severity ≠ .message → event.key? = some k →
      x.answer = .recorded (.ok none) → ∃ y ∈ pre, Establishes y k) ∧
    (Run.final answer (start metadata settings output) requests).repeats =
      (Run.history answer (start metadata settings output) requests).countP passesRepeat := by
  refine ⟨fun x hx event result hinput hanswer => ?_, fun k => ⟨countP_findsKey_le_one k, ?_⟩,
    ?_, ?_⟩
  · rw [Run.eq_exchange_of_mem hx, Run.exchange_answer, hinput] at hanswer
    rw [← Answer.recorded.inj hanswer]
    exact record_eq_none_iff x.before event
  · intro pre x post hrun hfinds y hy event hinput hkey
    have hmem := mem_keys_of_establishes hrun (.found hfinds) hy
    have hrun_y : y ∈ Run.history answer (start metadata settings output) requests := by
      simp [hrun, hy]
    rw [Run.eq_exchange_of_mem hrun_y, Run.exchange_answer, hinput]
    exact congrArg Answer.recorded
      ((record_eq_none_iff y.before event).2 (.inr ⟨k, hkey, hmem⟩))
  · intro k pre x post event hrun hinput hseverity hkey hanswer
    obtain ⟨is₁, i, is₂, -, rfl, rfl, -⟩ := Run.history_eq_append_cons hrun
    rw [Run.exchange_input] at hinput
    subst hinput
    -- the record that the event met holds only keys that were established before
    have hresult := (record_eq_none_iff _ event).1 (Answer.recorded.inj hanswer)
    obtain ⟨k', hkey', hmem⟩ := hresult.resolve_left hseverity
    obtain rfl : k = k' := Option.some.inj (hkey.symm.trans hkey')
    exact ((mem_keys_final k).1 hmem).resolve_left (by simp [start])
  · rw [repeats_final]
    simp [start]

end Recorder

end DiagnosticReport
