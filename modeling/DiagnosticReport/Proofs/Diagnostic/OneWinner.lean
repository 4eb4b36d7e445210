import DiagnosticReport.Diagnostic.ReportedWarnings
import DiagnosticReport.Proofs.Run
import Mathlib.Data.List.Dedup

/-!
# One winner for each key

Several clients may share one record of reported warnings. They enter warnings and ask for them, and
each call is one step, so that whatever the clients do comes to one sequence of calls. In any such
sequence the first call that enters a key wins it, and nobody else does
(`ReportedWarnings.one_winner`).

* `ReportedWarnings.keys_final` : the record holds the keys that have been won, the latest first.
* `ReportedWarnings.mem_keys_final_iff` : it holds the keys that have been entered.
* `Interleaving.perm` : the clients decide which calls are made, but not in which order.
-/

namespace DiagnosticReport

/-- A sequence of calls that several clients have made, each of them its own calls in order. -/
inductive Interleaving {α : Type} : List (List α) → List α → Prop where
  /-- No client has a call left. -/
  | done {clients : List (List α)} (finished : ∀ client ∈ clients, client = []) :
      Interleaving clients []
  /-- One of the clients makes its next call. -/
  | call {before after : List (List α)} {client calls : List α} {next : α}
      (rest : Interleaving (before ++ client :: after) calls) :
      Interleaving (before ++ (next :: client) :: after) (next :: calls)

theorem Interleaving.perm {α : Type} {clients : List (List α)} {calls : List α}
    (h : Interleaving clients calls) : calls.Perm clients.flatten := by
  induction h with
  | done finished => rw [List.flatten_eq_nil_iff.2 finished]
  | @call before after client calls next rest ih =>
    simp only [List.flatten_append, List.flatten_cons, List.cons_append] at ih ⊢
    -- the call comes from behind the calls of the clients before
    exact (ih.cons next).trans List.perm_middle.symm

namespace ReportedWarnings

/-! ### Calls -/

/-- A call of a client. -/
inductive Call where
  /-- To count a warning as reported. -/
  | enter (origin : Origin) (text : String)
  /-- Whether a warning has been reported. -/
  | ask (origin : Origin) (text : String)
  deriving DecidableEq

/-- The key that a call enters, if it enters one. -/
def Call.entered? : Call → Option WarningKey
  | .enter origin text => some (.of origin text)
  | .ask _ _ => none

/-- One call, with its answer. -/
def serve (w : ReportedWarnings) : Call → Bool × ReportedWarnings
  | .enter origin text => w.enter origin text
  | .ask origin text => (w.contains origin text, w)

/-- The key that a call has won: it was told that the warning is new. -/
def wonKey? (x : Exchange ReportedWarnings Call Bool) : Option WarningKey :=
  if x.answer then x.input.entered? else none

/-- The keys that were won by these calls. -/
def won (calls : List Call) : List WarningKey :=
  (Run.history serve empty calls).filterMap wonKey?

/-- The answers to these calls. -/
def answers (calls : List Call) : List Bool :=
  (Run.history serve empty calls).map Exchange.answer

/-- Whether one of these calls has entered a warning that comes from the same place and has the
same subject. -/
def HasEntered (calls : List Call) (origin : Origin) (text : String) : Prop :=
  ∃ text', .enter origin text' ∈ calls ∧ warningSubject text' = warningSubject text

variable {w : ReportedWarnings} {calls calls' : List Call} {origin : Origin} {text : String}
  {k : WarningKey}

theorem hasEntered_iff :
    HasEntered calls origin text ↔ WarningKey.of origin text ∈ calls.filterMap Call.entered? := by
  rw [List.mem_filterMap]
  constructor
  · rintro ⟨text', hmem, hsubject⟩
    exact ⟨_, hmem, by rw [Call.entered?, WarningKey.of, WarningKey.of, hsubject]⟩
  · rintro ⟨call, hmem, hcall⟩
    cases call with
    | enter origin' text' =>
      obtain ⟨rfl, hsubject⟩ := WarningKey.mk.inj (Option.some.inj hcall)
      exact ⟨text', hmem, hsubject⟩
    | ask => cases hcall

/-! ### The record -/

/-- **One call.** The record grows by the key that the call has won. -/
theorem keys_serve (w : ReportedWarnings) (call : Call) :
    (w.serve call).2.keys = (wonKey? (Run.exchange serve w call)).toList ++ w.keys := by
  cases call with
  | enter origin text =>
    by_cases hmem : WarningKey.of origin text ∈ w.keys <;>
      simp [serve, enter, insert, contains, wonKey?, Call.entered?, hmem]
  | ask origin text =>
    have hnone : wonKey? (Run.exchange serve w (.ask origin text)) = none := ite_self none
    rw [hnone]
    rfl

theorem mem_keys_serve {call : Call} :
    k ∈ (w.serve call).2.keys ↔ k ∈ w.keys ∨ call.entered? = some k := by
  cases call with
  | enter origin text =>
    simp [serve, enter, mem_keys_insert, Call.entered?, or_comm, eq_comm]
  | ask origin text => simp [serve, Call.entered?]

theorem nodup_keys_serve (hw : w.keys.Nodup) (call : Call) : (w.serve call).2.keys.Nodup := by
  cases call with
  | enter origin text => exact hw.insert
  | ask origin text => exact hw

/-- **The record holds the keys that have been won**, the latest first. -/
theorem keys_final (calls : List Call) :
    (Run.final serve empty calls).keys = (won calls).reverse := by
  refine Run.induction (P := fun run w => w.keys = (run.filterMap wonKey?).reverse) rfl
    (fun run w call ih => ?_) calls
  -- a key that is won comes first in the record and last in the list of those that were won
  rw [keys_serve, ih, List.filterMap_append, List.reverse_append]
  cases h : wonKey? (Run.exchange serve w call) <;> simp [h]

/-- **The record holds the keys that have been entered.** -/
theorem mem_keys_final_iff :
    k ∈ (Run.final serve empty calls).keys ↔ k ∈ calls.filterMap Call.entered? := by
  have hrun : k ∈ (Run.final serve empty calls).keys ↔
      k ∈ ((Run.history serve empty calls).map Exchange.input).filterMap Call.entered? := by
    refine Run.induction (P := fun run (w : ReportedWarnings) =>
      k ∈ w.keys ↔ k ∈ (run.map Exchange.input).filterMap Call.entered?) (by simp [empty])
      (fun run w call ih => ?_) calls
    rw [mem_keys_serve, ih]
    simp
  rwa [Run.map_input_history] at hrun

theorem nodup_keys_final (calls : List Call) : (Run.final serve empty calls).keys.Nodup :=
  Run.induction (P := fun _ (w : ReportedWarnings) => w.keys.Nodup) List.nodup_nil
    (fun _ _ call ih => nodup_keys_serve ih call) calls

theorem size_eq_length_dedup {keys : List WarningKey} (hw : w.keys.Nodup)
    (hmem : ∀ k, k ∈ w.keys ↔ k ∈ keys) : w.size = keys.dedup.length := by
  have hperm : w.keys.Perm keys.dedup := by
    rw [List.perm_ext_iff_of_nodup hw (List.nodup_dedup _)]
    intro k
    rw [hmem, List.mem_dedup]
  exact hperm.length_eq

/-! ### The winners -/

theorem mem_won_iff : k ∈ won calls ↔ k ∈ calls.filterMap Call.entered? := by
  rw [← mem_keys_final_iff, keys_final, List.mem_reverse]

theorem nodup_won (calls : List Call) : (won calls).Nodup := by
  rw [← List.nodup_reverse, ← keys_final]
  exact nodup_keys_final calls

theorem count_won (calls : List Call) (k : WarningKey) :
    (won calls).count k = if k ∈ calls.filterMap Call.entered? then 1 else 0 := by
  rw [(nodup_won calls).count]
  simp only [mem_won_iff]

/-- **Which keys are won does not depend on the order of the calls.** -/
theorem won_perm (h : calls.Perm calls') : (won calls).Perm (won calls') := by
  rw [List.perm_ext_iff_of_nodup (nodup_won calls) (nodup_won calls')]
  intro k
  rw [mem_won_iff, mem_won_iff, (h.filterMap _).mem_iff]

theorem size_final (calls : List Call) :
    (Run.final serve empty calls).size = (won calls).length := by
  rw [size, keys_final, List.length_reverse]

/-! ### The answers -/

theorem answers_append_cons (earlier : List Call) (call : Call) (later : List Call) :
    answers (earlier ++ call :: later) =
      answers earlier ++ (serve (Run.final serve empty earlier) call).1 ::
        (Run.history serve (serve (Run.final serve empty earlier) call).2 later).map
          Exchange.answer := by
  rw [answers, Run.history_append, List.map_append]
  rfl

theorem length_answers (calls : List Call) : (answers calls).length = calls.length := by
  simp [answers]

theorem getElem?_answers (earlier : List Call) (call : Call) (later : List Call) :
    (answers (earlier ++ call :: later))[earlier.length]? =
      some (serve (Run.final serve empty earlier) call).1 := by
  rw [answers_append_cons, ← length_answers earlier, List.getElem?_append_right (Nat.le_refl _),
    Nat.sub_self]
  rfl

theorem contains_final_iff {earlier : List Call} :
    (Run.final serve empty earlier).contains origin text = true ↔
      HasEntered earlier origin text := by
  rw [contains_iff, mem_keys_final_iff, hasEntered_iff]

/-- **Who wins a key.** -/
theorem getElem?_answers_enter (earlier later : List Call) (origin : Origin) (text : String) :
    (answers (earlier ++ .enter origin text :: later))[earlier.length]? = some true ↔
      ¬ HasEntered earlier origin text := by
  rw [getElem?_answers, ← contains_final_iff]
  simp [serve, enter]

theorem getElem?_answers_ask (earlier later : List Call) (origin : Origin) (text : String) :
    (answers (earlier ++ .ask origin text :: later))[earlier.length]? = some true ↔
      HasEntered earlier origin text := by
  rw [getElem?_answers, ← contains_final_iff]
  simp [serve]

theorem eraseIdx_answers_ask (earlier later : List Call) (origin : Origin) (text : String) :
    (answers (earlier ++ .ask origin text :: later)).eraseIdx earlier.length =
      answers (earlier ++ later) := by
  have hlength := length_answers earlier
  rw [answers_append_cons, List.eraseIdx_append_of_length_le (Nat.le_of_eq hlength), hlength,
    Nat.sub_self, List.eraseIdx_cons_zero, answers, answers, Run.history_append, List.map_append]
  rfl

/-- **One winner for each key, in any order.** Whatever is called, and in whichever order:

* A call that enters a warning is told that the warning is new exactly if no earlier call has
  entered one that comes from the same place and has the same subject; one that asks for it is told
  that it has been reported exactly if some earlier call has; and to ask changes no other answer.
* At every point, the size of the record is the number of calls that were told so, and the number of
  different keys that were entered; for each of these keys one call was told so.
* However the calls of several clients are interleaved, the size at the end is the same, and so is
  the number of winners for each key. -/
theorem one_winner :
    (∀ calls, (answers calls).length = calls.length) ∧
    (∀ earlier later origin text,
      ((answers (earlier ++ .enter origin text :: later))[earlier.length]? = some true ↔
        ¬ HasEntered earlier origin text) ∧
      ((answers (earlier ++ .ask origin text :: later))[earlier.length]? = some true ↔
        HasEntered earlier origin text) ∧
      (answers (earlier ++ .ask origin text :: later)).eraseIdx earlier.length =
        answers (earlier ++ later)) ∧
    (∀ calls, (Run.final serve empty calls).size = (won calls).length ∧
      (Run.final serve empty calls).size = (calls.filterMap Call.entered?).dedup.length ∧
      ∀ k, (won calls).count k = if k ∈ calls.filterMap Call.entered? then 1 else 0) ∧
    ∀ clients calls calls', Interleaving clients calls → Interleaving clients calls' →
      (Run.final serve empty calls).size = (Run.final serve empty calls').size ∧
      ∀ k, (won calls).count k = (won calls').count k := by
  refine ⟨length_answers, fun earlier later origin text => ⟨?_, ?_, ?_⟩,
    fun calls => ⟨size_final calls, ?_, count_won calls⟩, fun clients calls calls' h h' => ?_⟩
  · exact getElem?_answers_enter earlier later origin text
  · exact getElem?_answers_ask earlier later origin text
  · exact eraseIdx_answers_ask earlier later origin text
  · exact size_eq_length_dedup (nodup_keys_final calls) fun k => mem_keys_final_iff
  · have hwon : (won calls).Perm (won calls') := won_perm (h.perm.trans h'.perm.symm)
    refine ⟨?_, fun k => hwon.count_eq k⟩
    rw [size_final, size_final, hwon.length_eq]

end ReportedWarnings

end DiagnosticReport
