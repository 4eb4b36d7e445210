import DiagnosticReport.Proofs.Stream.HardStops
import DiagnosticReport.Proofs.Stream.Shape
import Mathlib.Logic.Function.Iterate

/-!
# Documents that check themselves

Who takes the output back from a document leaves one behind that has none. `Document.Guarded` is a
document that takes this into account: it looks for its output before every use, and if there is
none it answers as a closed document does. The documents of this library need no such checks. As
long as the output has not been taken back, the two cannot be told apart, call by call
(`Document.guard_perform`), so the checks never fail.

* `Document.guard_final` : after any calls that leave the document to its user, it has its output
  and no more of its head has been accepted than there is.
* `Document.closed_final_iff` : it is closed exactly if it was closed by one of them.
* `Document.write_eq_closed_iff` : only a closed document refuses an element, and stays as it is.
-/

namespace DiagnosticReport

open Markup

theorem WriteRule.call_le {rules rules' : List WriteRule} {n k : Nat}
    (h : call n rules = (.ok k, rules')) : k ≤ n := by
  fun_induction call n rules with
  | case1 | case2 | case3 | case4 | case5 | case6 => grind

namespace Document

/-- A document that may be without its output. -/
structure Guarded where
  /-- The bytes before the first entry. -/
  head : List UInt8
  /-- How many of them have been accepted. -/
  headAccepted : Nat := 0
  /-- How many entries have been written. -/
  written : Nat := 0
  /-- Whether the document has been closed. -/
  closed : Bool := false
  /-- Where it goes, unless the output has been taken back. -/
  output? : Option Output

namespace Guarded

/-- A document of which nothing has been written. -/
def start (metadata : Metadata) (output : Output) : Guarded :=
  { head := Text.utf8 (headText metadata), output? := some output }

/-- Writes what the output has not yet accepted of the head. If nothing is missing, no output is
needed. -/
def sendHead (g : Guarded) : Except ReportError Unit × Guarded :=
  if g.headAccepted = g.head.length then (.ok (), g)
  else
    match g.output? with
    | none => (.error .closed, g)
    | some out =>
      let (count, stop?, out) := out.send (g.head.drop g.headAccepted)
      let g := { g with headAccepted := g.headAccepted + count, output? := some out }
      match stop? with
      | none => (.ok (), g)
      | some .refused => (.error (.io ⟨"write zero", false⟩), g)
      | some (.failed fault) => (.error (.io fault), g)

/-- Writes the head, as far as it is missing, then texts, and flushes. -/
def deliver (g : Guarded) (texts : List String) : Except ReportError Unit × Guarded :=
  match g.sendHead with
  | (.error error, g) => (.error error, g)
  | (.ok (), g) =>
    match g.output? with
    | none => (.error .closed, g)
    | some out =>
      let (result, out) := Output.deliver texts out
      (result.mapError .io, { g with output? := some out })

/-- Flushes. -/
def flush (g : Guarded) : Except ReportError Unit × Guarded :=
  match g.output? with
  | none => (.error .closed, g)
  | some out => (out.flush.1.mapError .io, { g with output? := some out.flush.2 })

/-- Writes an element on a line of its own and flushes. -/
def write (g : Guarded) (element? : Option Element) : Except ReportError Unit × Guarded :=
  if g.closed then (.error .closed, g)
  else if markup element? = "" then (.ok (), g)
  else
    match g.deliver [markup element?, lineSeparator] with
    | (.error error, g) => (.error error, g)
    | (.ok (), g) => (.ok (), { g with written := g.written + 1 })

/-- Closes the document. Without an output there is nothing to do. -/
def close (g : Guarded) : Except ReportError Unit × Guarded :=
  if g.closed then (.ok (), g)
  else if g.output?.isNone then (.ok (), { g with closed := true })
  else if g.headAccepted = 0 then { g with closed := true }.flush
  else { g with closed := true }.deliver tailTexts

/-- Closes the document and takes its output back. -/
def finish (g : Guarded) : Except ReportError Output × Guarded :=
  match g.close with
  | (.error error, g) => (.error error, g)
  | (.ok (), g) =>
    match g.output? with
    | none => (.error .closed, g)
    | some out => (.ok out, { g with output? := none })

/-- A call, as one step of a machine. -/
def perform (g : Guarded) : Call → Except ReportError Unit × Guarded
  | .write element? => g.write element?
  | .close | .abandon => g.close
  | .finish => (g.finish.1.map fun _ => (), g.finish.2)

end Guarded

/-- Whether a call leaves the document to its user. -/
def Call.leavesDocument : Call → Bool
  | .write _ | .close => true
  | .finish | .abandon => false

/-- A document as one that checks itself. -/
def guard (doc : Document) : Guarded :=
  { doc with output? := some doc.output }

@[simp] theorem head_guard (doc : Document) : doc.guard.head = doc.head := rfl

@[simp] theorem headAccepted_guard (doc : Document) :
    doc.guard.headAccepted = doc.headAccepted := rfl

@[simp] theorem closed_guard (doc : Document) : doc.guard.closed = doc.closed := rfl

@[simp] theorem output?_guard (doc : Document) : doc.guard.output? = some doc.output := rfl

theorem guard_start (metadata : Metadata) (out : Output) :
    (start metadata out).guard = .start metadata out := rfl

/-! ### Checks that succeed -/

theorem sendHead_of_complete {doc : Document} (h : doc.headAccepted = doc.head.length) :
    doc.sendHead = (.ok (), doc) := by
  have hrest : doc.head.drop doc.headAccepted = [] := List.drop_eq_nil_of_le (Nat.le_of_eq h.symm)
  have hsend : doc.output.send [] = (0, none, doc.output) := by
    simp [Output.send, WriteRule.send]
  unfold sendHead
  rw [hrest, hsend]
  rfl

theorem guard_sendHead (doc : Document) :
    doc.guard.sendHead = (doc.sendHead.1.mapError .io, doc.sendHead.2.guard) := by
  unfold Guarded.sendHead
  by_cases hcomplete : doc.headAccepted = doc.head.length
  · rw [sendHead_of_complete hcomplete]
    exact if_pos hcomplete
  · have hmissing : ¬ doc.guard.headAccepted = doc.guard.head.length := hcomplete
    rw [if_neg hmissing, output?_guard, head_guard, headAccepted_guard, sendHead]
    dsimp only
    rcases doc.output.send (doc.head.drop doc.headAccepted) with ⟨count, _ | _ | fault, out⟩ <;> rfl

theorem guard_deliver (doc : Document) (texts : List String) :
    doc.guard.deliver texts =
      ((doc.deliver texts).1.mapError .io, (doc.deliver texts).2.guard) := by
  rw [Guarded.deliver, guard_sendHead, deliver]
  rcases doc.sendHead with ⟨_ | done, doc'⟩ <;> rfl

theorem guard_write (doc : Document) (element? : Option Element) :
    doc.guard.write element? = ((doc.write element?).1, (doc.write element?).2.guard) := by
  rw [Guarded.write, guard_deliver, closed_guard, write]
  split_ifs
  · rfl
  · rfl
  · rcases doc.deliver [markup element?, lineSeparator] with ⟨_ | done, doc'⟩ <;> rfl

theorem guard_close (doc : Document) :
    doc.guard.close = (doc.close.result, doc.close.next.guard) := by
  have hdeliver := { doc with closed := true }.guard_deliver tailTexts
  rcases doc.close_cases with ⟨hclosed, hresult, hnext⟩ | ⟨hopen, hzero, hresult, hnext⟩ |
    ⟨hopen, hsome, result, doc', hdelivered, hresult, hnext⟩
  · rw [hresult, hnext]
    exact if_pos hclosed
  · rw [hresult, hnext, Guarded.close, closed_guard, hopen, output?_guard, headAccepted_guard,
      if_pos hzero]
    rfl
  · rw [hdelivered] at hdeliver
    rw [hresult, hnext, Guarded.close, closed_guard, hopen, output?_guard, headAccepted_guard,
      if_neg hsome, ← hdeliver]
    rfl

theorem guard_finish (doc : Document) : doc.guard.finish.1 = doc.finish.result := by
  rw [Guarded.finish, guard_close, finish]
  cases doc.close.result <;> rfl

/-- **A call to a document**, as one to a document that checks itself. -/
theorem guard_perform {call : Call} (h : call.leavesDocument = true) (doc : Document) :
    doc.guard.perform call = ((doc.perform call).1, (doc.perform call).2.guard) := by
  cases call with
  | write element? => exact doc.guard_write element?
  | close => exact doc.guard_close
  | finish | abandon => cases h

theorem guard_history {calls : List Call} (h : ∀ call ∈ calls, call.leavesDocument = true)
    (doc : Document) :
    (Run.history Guarded.perform doc.guard calls).map Exchange.answer =
        (Run.history perform doc calls).map Exchange.answer ∧
      Run.final Guarded.perform doc.guard calls = (Run.final perform doc calls).guard := by
  induction calls generalizing doc with
  | nil => exact ⟨rfl, rfl⟩
  | cons call calls ih =>
    obtain ⟨hcall, hcalls⟩ := List.forall_mem_cons.1 h
    obtain ⟨hanswers, hfinal⟩ := ih hcalls (doc.perform call).2
    have hperform := guard_perform hcall doc
    simp only [Run.history_cons, Run.final_cons, List.map_cons, Run.exchange_answer, hperform]
    exact ⟨congrArg _ hanswers, hfinal⟩

/-! ### The head, call by call -/

namespace Guarded

/-- The document after its output has accepted `count` bytes of what was missing of the head, with
the rules that the output then has left. -/
def accept (g : Guarded) (count : Nat) (rules : List WriteRule) : Guarded :=
  { g with
    headAccepted := g.headAccepted + count
    output? := g.output?.map fun out =>
      { out with
        rules
        accepted := out.accepted ++ ((g.head.drop g.headAccepted).take count).toByteArray } }

/-- One turn of the loop that writes the head: what is missing of it is offered to the output. -/
def offer (g : Guarded) : Guarded :=
  if g.headAccepted < g.head.length then
    match g.output? with
    | none => g
    | some out =>
      match WriteRule.call (g.head.drop g.headAccepted).length out.rules with
      | (.ok count, rules) => g.accept count rules
      | (.error _, rules) => g.accept 0 rules
  else g

/-- What every use of a document relies on. -/
structure Sound (g : Guarded) : Prop where
  /-- The output is there. -/
  output : g.output?.isSome = true
  /-- No more of the head has been accepted than there is. -/
  le : g.headAccepted ≤ g.head.length

theorem Sound.accept {g : Guarded} (h : g.Sound) {count : Nat}
    (hcount : count ≤ (g.head.drop g.headAccepted).length) (rules : List WriteRule) :
    (g.accept count rules).Sound := by
  have hle := h.le
  rw [List.length_drop] at hcount
  exact ⟨by simpa [Guarded.accept] using h.output, by dsimp only [Guarded.accept]; omega⟩

/-- A turn of the loop starts behind what has been accepted, and does not get past the end. -/
theorem Sound.offer {g : Guarded} (h : g.Sound) : g.offer.Sound := by
  unfold Guarded.offer
  split_ifs
  · split
    next => exact h
    next out _ =>
      split
      next count rules hcall => exact h.accept (WriteRule.call_le hcall) rules
      next => exact h.accept (Nat.zero_le _) _
  · exact h

theorem Sound.offers {g : Guarded} (h : g.Sound) (turns : Nat) :
    (Guarded.offer^[turns] g).Sound := by
  induction turns generalizing g with
  | zero => exact h
  | succ turns ih => exact ih h.offer

theorem accept_accept (g : Guarded) (first second : Nat) (rules rules' : List WriteRule) :
    (g.accept first rules).accept second rules' = g.accept (first + second) rules' := by
  simp [accept, List.take_add, Nat.add_assoc, Function.comp_def, ByteArray.append_assoc]

theorem accept_zero {g : Guarded} {rules : List WriteRule}
    (h : g.output?.map Output.rules = some rules) : g.accept 0 rules = g := by
  obtain ⟨out, hout, rfl⟩ := Option.map_eq_some_iff.1 h
  have hself : { out with accepted := out.accepted ++ [].toByteArray } = out := by simp
  rw [accept, List.take_zero, hout, Option.map_some, hself, ← hout, Nat.add_zero]

theorem rules_accept {g : Guarded} {rules : List WriteRule}
    (h : g.output?.map Output.rules = some rules) (count : Nat) (rules' : List WriteRule) :
    (g.accept count rules').output?.map Output.rules = some rules' := by
  obtain ⟨out, hout, -⟩ := Option.map_eq_some_iff.1 h
  simp [accept, hout]

theorem length_missing_accept (g : Guarded) (count : Nat) (rules : List WriteRule) :
    ((g.accept count rules).head.drop (g.accept count rules).headAccepted).length =
      (g.head.drop g.headAccepted).length - count := by
  rw [accept, List.length_drop, List.length_drop, Nat.sub_sub]

theorem offer_eq {g : Guarded} {rules : List WriteRule} {n : Nat}
    (hrules : g.output?.map Output.rules = some rules)
    (hmissing : (g.head.drop g.headAccepted).length = n) (pos : 0 < n) :
    g.offer =
      match WriteRule.call n rules with
      | (.ok count, rules) => g.accept count rules
      | (.error _, rules) => g.accept 0 rules := by
  obtain ⟨out, hout, rfl⟩ := Option.map_eq_some_iff.1 hrules
  have hlt : g.headAccepted < g.head.length := by
    rw [List.length_drop] at hmissing
    omega
  rw [offer, if_pos hlt, hout, ← hmissing]

theorem offers_of_retries {rules : List WriteRule} {n calls : Nat} {sending : Sending}
    (h : WriteRule.Retries rules n calls sending) {g : Guarded}
    (hrules : g.output?.map Output.rules = some rules)
    (hmissing : (g.head.drop g.headAccepted).length = n) :
    Guarded.offer^[calls] g = g.accept sending.count sending.rules := by
  induction h generalizing g with
  | done => exact (accept_zero hrules).symm
  | @accepted _ rules' _ k _ _ pos call some again ih =>
    have hoffer := offer_eq hrules hmissing pos
    have hagain := ih (rules_accept hrules k rules')
      (by rw [length_missing_accept, hmissing])
    rw [call] at hoffer
    rw [Function.iterate_succ_apply, hoffer, hagain, accept_accept]
  | refused pos call | failed pos call =>
    have hoffer := offer_eq hrules hmissing pos
    rw [call] at hoffer
    rw [Function.iterate_one, hoffer]
  | @interrupted _ rules' _ _ _ _ pos call interrupted again ih =>
    have hoffer := offer_eq hrules hmissing pos
    have hagain := ih (rules_accept hrules 0 rules')
      (by rw [length_missing_accept, hmissing, Nat.sub_zero])
    rw [call] at hoffer
    rw [Function.iterate_succ_apply, hoffer, hagain, accept_accept, Nat.zero_add]

end Guarded

theorem exists_offers (doc : Document) :
    ∃ turns, doc.guard.sendHead.2 = Guarded.offer^[turns] doc.guard := by
  obtain ⟨calls, -, hretries⟩ :=
    WriteRule.exists_retries doc.output.rules (doc.head.drop doc.headAccepted).length
  have hsent : doc.sendHead.2 =
      { doc with
        headAccepted := doc.headAccepted + (doc.output.send (doc.head.drop doc.headAccepted)).1
        output := (doc.output.send (doc.head.drop doc.headAccepted)).2.2 } := by
    unfold sendHead
    rcases doc.output.send (doc.head.drop doc.headAccepted) with ⟨count, _ | _ | fault, out⟩ <;> rfl
  refine ⟨calls, ?_⟩
  rw [Guarded.offers_of_retries hretries rfl rfl, guard_sendHead, hsent]
  rfl

/-! ### Documents in use -/

theorem mapError_io_ne_closed {α : Type} (result : Except Fault α) :
    result.mapError ReportError.io ≠ .error .closed := by
  cases result <;> simp [Except.mapError]

theorem close_ne_closed (doc : Document) : doc.close.result ≠ .error .closed := by
  rcases doc.close_cases with
    ⟨-, hresult, -⟩ | ⟨-, -, hresult, -⟩ | ⟨-, -, result, -, -, hresult, -⟩
  · simp [hresult]
  · rw [hresult]
    exact mapError_io_ne_closed _
  · rw [hresult]
    exact mapError_io_ne_closed _

theorem finish_ne_closed (doc : Document) : doc.finish.result ≠ .error .closed := by
  have hclose := doc.close_ne_closed
  unfold finish
  dsimp only
  cases hresult : doc.close.result with
  | ok done => simp [Except.map]
  | error error => simpa [hresult, Except.map] using hclose

/-- **Only a closed document refuses an element**, and stays as it is. -/
theorem write_eq_closed_iff (doc : Document) (element? : Option Element) :
    ((doc.write element?).1 = .error .closed ↔ doc.closed = true) ∧
      (doc.closed = true → (doc.write element?).2 = doc) := by
  rcases doc.write_cases element? with ⟨hclosed, heq⟩ | ⟨hopen, -, heq⟩ |
    ⟨hopen, -, result, doc', written, -, heq⟩
  · simp [heq, hclosed]
  · simp [heq, hopen]
  · simp [heq, hopen, mapError_io_ne_closed]

theorem Outcome.headAccepted_le {x : Turn} (h : Outcome x)
    (hle : x.before.headAccepted ≤ x.before.head.length) :
    x.after.headAccepted ≤ x.before.head.length := by
  cases h with
  | idle due blank headAccepted bytes => exact headAccepted ▸ hle
  | inHead due answer headAccepted lt bytes => exact Nat.le_of_lt lt
  | behindHead due headAccepted bytes leaves => exact Nat.le_of_eq headAccepted

theorem closed_final_iff (metadata : Metadata) (out : Output) {calls : List Call}
    (h : ∀ call ∈ calls, call.leavesDocument = true) :
    (Run.final perform (start metadata out) calls).closed = true ↔ .close ∈ calls := by
  have hcalls : (Run.history perform (start metadata out) calls).map Exchange.input = calls :=
    Run.map_input_history calls
  rw [(invariant_final metadata out calls).closed, firstClosing?, List.find?_isSome]
  constructor
  · rintro ⟨x, hx, hclosing⟩
    have hinput : x.input ∈ calls := hcalls ▸ List.mem_map_of_mem hx
    have hleaves := h _ hinput
    cases hcall : x.input with
    | close => exact hcall ▸ hinput
    | write | finish | abandon => simp_all [Call.isClosing, Call.leavesDocument]
  · intro hclose
    rw [← hcalls] at hclose
    obtain ⟨x, hx, hinput⟩ := List.mem_map.1 hclose
    exact ⟨x, hx, by rw [hinput]; rfl⟩

/-- **The checks hold.** Calls that leave the document to its user are answered as by a document
that checks nothing, and afterwards the document is in the state of that one, has its output, and
has no more of its head accepted than there is. -/
theorem guard_final (metadata : Metadata) (out : Output) {calls : List Call}
    (h : ∀ call ∈ calls, call.leavesDocument = true) :
    (Run.history Guarded.perform (.start metadata out) calls).map Exchange.answer =
        (Run.history perform (start metadata out) calls).map Exchange.answer ∧
      Run.final Guarded.perform (.start metadata out) calls =
        (Run.final perform (start metadata out) calls).guard ∧
      (Run.final perform (start metadata out) calls).guard.Sound := by
  have hinvariant := invariant_final metadata out calls
  have hruns := guard_history h (start metadata out)
  rw [guard_start] at hruns
  refine ⟨hruns.1, hruns.2, rfl, ?_⟩
  rw [headAccepted_guard, head_guard, hinvariant.head_eq]
  exact hinvariant.le

end Document

end DiagnosticReport
