import Mathlib.Data.List.Forall2

/-!
# Runs

A document, a recorder and the record of reported warnings are used in the same way: one input
after the other is put in, each is answered, and each may change the state. A run is such a
sequence of inputs. `Run.history` keeps all that could be observed of it, `Run.final` is the
state it ends in.

* `Run.induction` : what holds of the empty history and the first state, and is kept by every
  exchange, holds at the end of every run. All invariants of runs are proved by it.
* `Run.history_eq_append_cons` : a history cut at an exchange consists of the history of a
  shorter run, the exchange, and the history of what follows.
* `Run.forall₂_history` : two machines that are put through the same inputs stay related, if
  every single input keeps them related.
* `Run.sameAnswer_history` : one machine that is put through the same inputs from two related states
  answers alike, if it does so at every single input.

A reader of texts is a machine of another kind: it gives no answers, but it may refuse an input.
`Run.final?` is the state it ends in, if it refuses none.
-/

namespace DiagnosticReport

/-- An input with its answer, between the state it met and the state it left. -/
structure Exchange (σ ι ο : Type) where
  /-- The state that the input met. -/
  before : σ
  /-- What was put in. -/
  input : ι
  /-- What came back. -/
  answer : ο
  /-- The state that the input left. -/
  after : σ

/-- Two steps that give the same answer and leave related states. -/
inductive SameAnswer {σ α : Type} (R : σ → σ → Prop) : α × σ → α × σ → Prop where
  | intro {answer : α} {s s' : σ} (after : R s s') : SameAnswer R (answer, s) (answer, s')

namespace SameAnswer

variable {σ α β : Type} {R : σ → σ → Prop} {x x' : α × σ}

theorem of_eq (h : x.1 = x'.1) (after : R x.2 x'.2) : SameAnswer R x x' := by
  obtain ⟨answer, s⟩ := x
  obtain ⟨answer', s'⟩ := x'
  obtain rfl : answer = answer' := h
  exact .intro after

theorem answer_eq (h : SameAnswer R x x') : x.1 = x'.1 := by
  cases h
  rfl

theorem after (h : SameAnswer R x x') : R x.2 x'.2 := by
  cases h
  assumption

theorem map (f : α → β) (h : SameAnswer R x x') : SameAnswer R (f x.1, x.2) (f x'.1, x'.2) :=
  .of_eq (congrArg f h.answer_eq) h.after

end SameAnswer

namespace Run

variable {σ τ ι ο π : Type} {step : σ → ι → ο × σ} {s : σ}

/-- One input to a machine in state `s`. -/
def exchange (step : σ → ι → ο × σ) (s : σ) (i : ι) : Exchange σ ι ο :=
  ⟨s, i, (step s i).1, (step s i).2⟩

@[simp] theorem exchange_before (s : σ) (i : ι) : (exchange step s i).before = s := rfl

@[simp] theorem exchange_input (s : σ) (i : ι) : (exchange step s i).input = i := rfl

@[simp] theorem exchange_answer (s : σ) (i : ι) : (exchange step s i).answer = (step s i).1 := rfl

@[simp] theorem exchange_after (s : σ) (i : ι) : (exchange step s i).after = (step s i).2 := rfl

/-- The state after a sequence of inputs. -/
def final (step : σ → ι → ο × σ) (s : σ) : List ι → σ
  | [] => s
  | i :: is => final step (step s i).2 is

/-- The exchanges of a run, in order. -/
def history (step : σ → ι → ο × σ) (s : σ) : List ι → List (Exchange σ ι ο)
  | [] => []
  | i :: is => exchange step s i :: history step (step s i).2 is

@[simp] theorem history_nil : history step s [] = [] := rfl

@[simp] theorem final_nil : final step s [] = s := rfl

@[simp] theorem history_cons (i : ι) (is : List ι) :
    history step s (i :: is) = exchange step s i :: history step (step s i).2 is := rfl

@[simp] theorem final_cons (i : ι) (is : List ι) :
    final step s (i :: is) = final step (step s i).2 is := rfl

@[simp] theorem length_history (is : List ι) : (history step s is).length = is.length := by
  induction is generalizing s with
  | nil => rfl
  | cons i is ih => simp [ih]

@[simp] theorem map_input_history (is : List ι) :
    (history step s is).map Exchange.input = is := by
  induction is generalizing s with
  | nil => rfl
  | cons i is ih => simp [ih]

theorem history_append (is js : List ι) :
    history step s (is ++ js) = history step s is ++ history step (final step s is) js := by
  induction is generalizing s with
  | nil => rfl
  | cons i is ih => simp [ih]

/-- **Induction over a run.** The invariant `P` may speak of all that has happened so far. -/
theorem induction {P : List (Exchange σ ι ο) → σ → Prop} (first : P [] s)
    (next : ∀ h t i, P h t → P (h ++ [exchange step t i]) (step t i).2) (is : List ι) :
    P (history step s is) (final step s is) := by
  -- generalized to a run that continues one with history `h`
  have continued : ∀ h t, P h t → P (h ++ history step t is) (final step t is) := by
    induction is with
    | nil => intro h t hP; simpa using hP
    | cons i is ih =>
      intro h t hP
      have hlater := ih _ _ (next h t i hP)
      rwa [List.append_assoc] at hlater
  exact continued [] s first

/-- **Cutting a history.** What stands before an exchange is the history of the inputs before
it, and what stands after it is the history of the inputs after it. -/
theorem history_eq_append_cons {is : List ι} {pre post : List (Exchange σ ι ο)}
    {x : Exchange σ ι ο} (h : history step s is = pre ++ x :: post) :
    ∃ is₁ i is₂, is = is₁ ++ i :: is₂ ∧ pre = history step s is₁ ∧
      x = exchange step (final step s is₁) i ∧ post = history step x.after is₂ := by
  induction pre generalizing s is with
  | nil =>
    cases is with
    | nil => simp at h
    | cons i is =>
      obtain ⟨rfl, rfl⟩ := List.cons.inj h
      exact ⟨[], i, is, rfl, rfl, rfl, rfl⟩
  | cons y pre ih =>
    cases is with
    | nil => simp at h
    | cons j is =>
      obtain ⟨rfl, htail⟩ := List.cons.inj h
      obtain ⟨is₁, i, is₂, rfl, rfl, rfl, rfl⟩ := ih htail
      exact ⟨j :: is₁, i, is₂, rfl, rfl, rfl, rfl⟩

/-- Every exchange of a run is a step from a state that the run passes through. -/
theorem eq_exchange_of_mem {is : List ι} {x : Exchange σ ι ο} (h : x ∈ history step s is) :
    x = exchange step x.before x.input := by
  obtain ⟨pre, post, hsplit⟩ := List.append_of_mem h
  obtain ⟨is₁, i, is₂, -, -, rfl, -⟩ := history_eq_append_cons hsplit
  rfl

/-- **Two machines on the same inputs.** If every input keeps the machines related by `R`, and
`Q` holds of the two exchanges, then `Q` holds all along and `R` at the end. -/
theorem forall₂_history {step' : τ → ι → π × τ} {R : σ → τ → Prop}
    {Q : Exchange σ ι ο → Exchange τ ι π → Prop}
    (next : ∀ s t i, R s t →
      Q (exchange step s i) (exchange step' t i) ∧ R (step s i).2 (step' t i).2)
    {t : τ} (h : R s t) (is : List ι) :
    List.Forall₂ Q (history step s is) (history step' t is) ∧
      R (final step s is) (final step' t is) := by
  induction is generalizing s t with
  | nil => exact ⟨.nil, h⟩
  | cons i is ih =>
    obtain ⟨hQ, hR⟩ := next s t i h
    obtain ⟨hQs, hfinal⟩ := ih hR
    exact ⟨.cons hQ hQs, hfinal⟩

/-- **One machine from two states.** If related states answer every input alike, then so do they
all along. -/
theorem sameAnswer_history {R : σ → σ → Prop}
    (next : ∀ s t i, R s t → SameAnswer R (step s i) (step t i)) {t : σ} (h : R s t)
    (is : List ι) :
    List.Forall₂ (fun x y => x.answer = y.answer ∧ R x.after y.after) (history step s is)
        (history step t is) ∧
      R (final step s is) (final step t is) := by
  refine forall₂_history (fun s t i hst => ?_) h is
  have hnext := next s t i hst
  exact ⟨⟨hnext.answer_eq, hnext.after⟩, hnext.after⟩

/-! ### Inputs that may be refused -/

section Refusing

variable {read : σ → ι → Option σ} {s t : σ} {is : List ι}

/-- The state after a sequence of inputs, if none of them is refused. -/
def final? (read : σ → ι → Option σ) (s : σ) (is : List ι) : Option σ :=
  is.foldlM read s

@[simp] theorem final?_nil (s : σ) : final? read s [] = some s := rfl

theorem final?_cons (s : σ) (i : ι) (is : List ι) :
    final? read s (i :: is) = (read s i).bind fun t => final? read t is :=
  List.foldlM_cons

theorem final?_cons_of_eq {i : ι} (h : read s i = some t) (is : List ι) :
    final? read s (i :: is) = final? read t is := by
  rw [final?_cons, h, Option.bind_some]

/-- A machine goes on where it has got to. -/
theorem final?_append_of_eq (h : final? read s is = some t) (js : List ι) :
    final? read s (is ++ js) = final? read t js := by
  have hbind : final? read s (is ++ js) = (final? read s is).bind fun t => final? read t js :=
    List.foldlM_append
  rw [hbind, h, Option.bind_some]

theorem final?_of_stays (h : ∀ i ∈ is, read s i = some s) : final? read s is = some s := by
  induction is with
  | nil => rfl
  | cons i is ih =>
    obtain ⟨hi, his⟩ := List.forall_mem_cons.1 h
    rw [final?_cons_of_eq hi, ih his]

/-- Inputs that are collected one by one, such as the characters of a name. -/
theorem final?_of_collects (state : List ι → σ) {p : ι → Prop}
    (hstep : ∀ collected i, p i → read (state collected) i = some (state (collected ++ [i])))
    (h : ∀ i ∈ is, p i) (collected : List ι) :
    final? read (state collected) is = some (state (collected ++ is)) := by
  induction is generalizing collected with
  | nil => rw [final?_nil, List.append_nil]
  | cons i is ih =>
    obtain ⟨hi, his⟩ := List.forall_mem_cons.1 h
    rw [final?_cons_of_eq (hstep collected i hi), ih his, List.append_assoc,
      List.singleton_append]

end Refusing

end Run

end DiagnosticReport
