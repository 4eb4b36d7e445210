import DiagnosticReport.Proofs.Stream.Calls

/-!
# What can be seen of an output

Bytes are written call by call (`WriteRule.call`): a call may accept fewer bytes than it was
offered, and then the rest is offered to the next call, or it may be interrupted, and then it is
made again. `WriteRule.Retries` is this loop, call by call. It comes to rest after finitely many
calls (`WriteRule.exists_retries`), and `WriteRule.send` says how (`WriteRule.Retries.eq_send`).

How many calls it took is not seen afterwards. All that matters about the writes to come is where
they stop for good (`WriteRule.stops`): after how many bytes, and whether because nothing is
accepted or because a call fails (`WriteRule.stops_send`). So two outputs with the same stops and
the same failures to flush (`Output.FailsLike`) cannot be told apart by a document, whatever they
make of the single calls:

* `Output.Alike.deliver` : deliveries to both come to the same.
* `Document.Alike.perform`, `Document.Alike.history` : calls to two documents on them come to the
  same, and so do runs.
-/

namespace DiagnosticReport

open Markup

namespace WriteRule

/-! ### Single calls -/

/-- One call that offers `n` bytes: how many of them are accepted, or the failure. -/
def call (n : Nat) : List WriteRule → Except Fault Nat × List WriteRule
  | [] => (.ok n, [])
  | .accept budget :: rules =>
    if n ≤ budget then (.ok n, .accept (budget - n) :: rules)
    else if budget = 0 then call n rules
    else (.ok budget, rules)
  | .refuse :: rules => (.ok 0, rules)
  | .fail fault :: rules => (.error fault, rules)

/-- The loop that writes `n` bytes call by call, until all are accepted or it is stopped: the number
of calls, and how it came to rest. -/
inductive Retries : List WriteRule → Nat → Nat → Sending → Prop where
  /-- Nothing is left to write. -/
  | done {rules : List WriteRule} : Retries rules 0 0 ⟨0, none, rules⟩
  /-- Some bytes were accepted; the rest is offered again. -/
  | accepted {rules rules' : List WriteRule} {n k calls : Nat} {rest : Sending} (pos : 0 < n)
      (call : call n rules = (.ok k, rules')) (some : 0 < k)
      (again : Retries rules' (n - k) calls rest) :
      Retries rules n (calls + 1) { rest with count := k + rest.count }
  /-- Nothing was accepted. -/
  | refused {rules rules' : List WriteRule} {n : Nat} (pos : 0 < n)
      (call : call n rules = (.ok 0, rules')) : Retries rules n 1 ⟨0, Option.some .refused, rules'⟩
  /-- The call was interrupted; the same bytes are offered again. -/
  | interrupted {rules rules' : List WriteRule} {n calls : Nat} {fault : Fault} {rest : Sending}
      (pos : 0 < n) (call : call n rules = (.error fault, rules'))
      (interrupted : fault.interrupted = true) (again : Retries rules' n calls rest) :
      Retries rules n (calls + 1) rest
  /-- The call failed. -/
  | failed {rules rules' : List WriteRule} {n : Nat} {fault : Fault} (pos : 0 < n)
      (call : call n rules = (.error fault, rules')) (hard : fault.interrupted = false) :
      Retries rules n 1 ⟨0, Option.some (.failed fault), rules'⟩

variable {rules rules' : List WriteRule} {n calls : Nat}

theorem send_eq_of_call (pos : 0 < n) :
    send rules n =
      match call n rules with
      | (.ok 0, rules') => ⟨0, some .refused, rules'⟩
      | (.ok k, rules') => { send rules' (n - k) with count := k + (send rules' (n - k)).count }
      | (.error fault, rules') =>
        if fault.interrupted then send rules' n else ⟨0, some (.failed fault), rules'⟩ := by
  have hne : n ≠ 0 := Nat.ne_of_gt pos
  fun_induction call n rules with
  | case1 => simp [send]
  | case2 budget rules hle => simp [send, hle]
  | case3 rules hlt ih =>
    rw [send, if_neg hlt]
    · simpa using ih
    · exact hne
  | case4 budget rules hlt hbudget => simp [send, hlt]
  | case5 rules => simp [send]
  | case6 fault rules => simp [send]

theorem Retries.eq_send {sending : Sending} (h : Retries rules n calls sending) :
    sending = send rules n := by
  induction h with
  | done => rw [send]
  | @accepted _ _ n k _ _ pos call some again ih =>
    obtain ⟨j, rfl⟩ := Nat.exists_eq_succ_of_ne_zero (Nat.ne_of_gt some)
    subst ih
    simp only [send_eq_of_call pos, call]
  | refused pos call => simp only [send_eq_of_call pos, call]
  | @interrupted rules _ n _ _ _ pos call interrupted again ih =>
    have hturn := @send_eq_of_call rules n pos
    simp only [call, interrupted, if_true] at hturn
    exact ih.trans hturn.symm
  | failed pos call hard =>
    simp [send_eq_of_call pos, call, hard]

theorem Retries.accept_zero {sending : Sending} (pos : 0 < n)
    (h : Retries rules n calls sending) : Retries (.accept 0 :: rules) n calls sending := by
  have hcall : WriteRule.call n (.accept 0 :: rules) = WriteRule.call n rules := by
    rw [WriteRule.call, if_neg (by omega), if_pos rfl]
  cases h with
  | done => exact absurd pos (Nat.lt_irrefl 0)
  | accepted _ call some again => exact .accepted pos (hcall.trans call) some again
  | refused _ call => exact .refused pos (hcall.trans call)
  | interrupted _ call hinterrupted again =>
    exact .interrupted pos (hcall.trans call) hinterrupted again
  | failed _ call hard => exact .failed pos (hcall.trans call) hard

/-- **The loop comes to rest.** Every call but the last uses up a rule. -/
theorem exists_retries (rules : List WriteRule) (n : Nat) :
    ∃ calls, calls ≤ rules.length + 1 ∧ Retries rules n calls (send rules n) := by
  fun_induction send rules n with
  | case1 rules => exact ⟨0, Nat.zero_le _, .done⟩
  | case2 n hn =>
    have hpos : 0 < n := Nat.pos_of_ne_zero hn
    have hrest : Retries [] (n - n) 0 ⟨0, none, []⟩ := by rw [Nat.sub_self]; exact .done
    exact ⟨1, Nat.le_refl 1, .accepted hpos rfl hpos hrest⟩
  | case3 budget rules n hn hle =>
    have hpos : 0 < n := Nat.pos_of_ne_zero hn
    have hrest : Retries (.accept (budget - n) :: rules) (n - n) 0
        ⟨0, none, .accept (budget - n) :: rules⟩ := by rw [Nat.sub_self]; exact .done
    exact ⟨1, by simp, .accepted hpos (by rw [call, if_pos hle]) hpos hrest⟩
  | case4 budget rules n hn hlt rest ih =>
    obtain ⟨calls, hcalls, hrest⟩ := ih
    have hpos : 0 < n := Nat.pos_of_ne_zero hn
    -- a budget that is used up does not end a call, the next rule decides
    rcases Nat.eq_zero_or_pos budget with rfl | hbudget
    · refine ⟨calls, Nat.le_trans hcalls (by simp), .accept_zero hpos ?_⟩
      simpa [rest] using hrest
    · refine ⟨calls + 1, by simpa using hcalls, .accepted hpos ?_ hbudget hrest⟩
      rw [call, if_neg hlt, if_neg (Nat.ne_of_gt hbudget)]
  | case5 rules n hn => exact ⟨1, by simp, .refused (Nat.pos_of_ne_zero hn) rfl⟩
  | case6 fault rules n hn hint ih =>
    obtain ⟨calls, hcalls, hrest⟩ := ih
    exact ⟨calls + 1, by simpa using hcalls,
      .interrupted (Nat.pos_of_ne_zero hn) rfl hint hrest⟩
  | case7 fault rules n hn hhard =>
    exact ⟨1, by simp, .failed (Nat.pos_of_ne_zero hn) rfl (by simpa using hhard)⟩

/-! ### Where writes stop for good -/

/-- The stops `bytes` bytes later. -/
def delay (bytes : Nat) : List (Nat × Stop) → List (Nat × Stop)
  | [] => []
  | (distance, stop) :: stops => (bytes + distance, stop) :: stops

/-- Where writes stop for good: the number of bytes that are accepted since the stop before, and
the stop. How the bytes are split over calls is left out, and so are interruptions. -/
def stops : List WriteRule → List (Nat × Stop)
  | [] => []
  | .accept budget :: rules => delay budget (stops rules)
  | .refuse :: rules => (0, .refused) :: stops rules
  | .fail fault :: rules =>
    if fault.interrupted then stops rules else (0, .failed fault) :: stops rules

/-- What is in front of some rules does not tell their stops apart. -/
theorem stops_append_congr (front : List WriteRule) (h : stops rules = stops rules') :
    stops (front ++ rules) = stops (front ++ rules') := by
  induction front with
  | nil => exact h
  | cons rule front ih => cases rule <;> simp only [List.cons_append, stops, ih]

theorem stops_split (front back : List WriteRule) (first second : Nat) :
    stops (front ++ .accept first :: .accept second :: back) =
      stops (front ++ .accept (first + second) :: back) := by
  refine stops_append_congr front ?_
  simp only [stops]
  cases stops back with
  | nil => rfl
  | cons stop stops => simp only [delay, Nat.add_assoc]

theorem stops_interrupted (front back : List WriteRule) {fault : Fault}
    (h : fault.interrupted = true) : stops (front ++ .fail fault :: back) = stops (front ++ back) :=
  stops_append_congr front (if_pos h)

/-- How the writing of `n` bytes comes to rest, as far as the stops tell. -/
def reach (n : Nat) : List (Nat × Stop) → Nat × Option Stop × List (Nat × Stop)
  | [] => (n, none, [])
  | (distance, stop) :: stops =>
    if n ≤ distance then (n, none, (distance - n, stop) :: stops)
    else (distance, some stop, stops)

theorem reach_zero (stops : List (Nat × Stop)) : reach 0 stops = (0, none, stops) := by
  cases stops <;> rfl

theorem reach_delay_of_le {budget : Nat} (h : n ≤ budget) (stops : List (Nat × Stop)) :
    reach n (delay budget stops) = (n, none, delay (budget - n) stops) := by
  cases stops with
  | nil => rfl
  | cons stop stops =>
    rw [delay, reach, if_pos (by omega), delay, Nat.sub_add_comm h]

theorem reach_delay_of_lt {budget : Nat} (h : budget < n) (stops : List (Nat × Stop)) :
    reach n (delay budget stops) =
      (budget + (reach (n - budget) stops).1, (reach (n - budget) stops).2) := by
  cases stops with
  | nil =>
    rw [delay, reach, reach, Nat.add_sub_cancel' (Nat.le_of_lt h)]
  | cons stop stops =>
    by_cases hle : n ≤ budget + stop.1
    · have hrest : n - budget ≤ stop.1 := by omega
      have hdistance : budget + stop.1 - n = stop.1 - (n - budget) := by omega
      rw [delay, reach, if_pos hle, reach, if_pos hrest, hdistance,
        Nat.add_sub_cancel' (Nat.le_of_lt h)]
    · have hrest : ¬n - budget ≤ stop.1 := by omega
      rw [delay, reach, if_neg hle, reach, if_neg hrest]

/-- **Only the stops matter** for how the writing of bytes comes to rest. -/
theorem stops_send (rules : List WriteRule) (n : Nat) :
    ((send rules n).count, (send rules n).stop?, stops (send rules n).rules) =
      reach n (stops rules) := by
  fun_induction send rules n with
  | case1 rules => exact (reach_zero _).symm
  | case2 n => rfl
  | case3 budget rules n _ hle => exact (reach_delay_of_le hle _).symm
  | case4 budget rules n _ hlt rest ih =>
    rw [stops, reach_delay_of_lt (Nat.lt_of_not_le hlt), ← ih]
  | case5 rules n hn =>
    have hlt : ¬n ≤ 0 := fun h => hn (Nat.le_zero.1 h)
    rw [stops, reach, if_neg hlt]
  | case6 fault rules n _ hinterrupted ih => rw [ih, stops, if_pos hinterrupted]
  | case7 fault rules n hn hhard =>
    have hlt : ¬n ≤ 0 := fun h => hn (Nat.le_zero.1 h)
    rw [stops, if_neg hhard, reach, if_neg hlt]

/-- Rules that have the same stops take the same bytes, and have the same stops left. -/
theorem send_eq_of_stops_eq (h : stops rules = stops rules') (n : Nat) :
    (send rules n).count = (send rules' n).count ∧
      (send rules n).stop? = (send rules' n).stop? ∧
      stops (send rules n).rules = stops (send rules' n).rules := by
  have heq := (stops_send rules n).trans (h ▸ (stops_send rules' n).symm)
  simpa only [Prod.mk.injEq] using heq

end WriteRule

/-! ### Outputs -/

namespace Output

/-- Two outputs fail alike: their writes stop for good behind the same bytes and for the same
reasons, and the same flushes fail. -/
structure FailsLike (out out' : Output) : Prop where
  /-- The writes stop alike. -/
  stops : WriteRule.stops out.rules = WriteRule.stops out'.rules
  /-- The flushes fail alike. -/
  flushes : ∀ n : Nat, out.flushes[n]?.join = out'.flushes[n]?.join

/-- Two outputs that fail alike, and that have accepted the same bytes on top of what they
held. -/
structure Alike (held held' : List UInt8) (out out' : Output) : Prop where
  /-- They fail alike. -/
  failsLike : out.FailsLike out'
  /-- They have accepted the same bytes. -/
  bytes : ∃ sent, out.bytes = held ++ sent ∧ out'.bytes = held' ++ sent

theorem flush_eq (out : Output) :
    out.flush =
      ((match out.flushes[0]?.join with
        | none => .ok ()
        | some fault => .error fault),
        { out with flushes := out.flushes.tail, flushed := out.flushed + 1 }) := by
  unfold flush
  split <;> simp [*]

variable {held held' : List UInt8} {out out' : Output}

theorem FailsLike.alike (h : out.FailsLike out') : Alike out.bytes out'.bytes out out' :=
  ⟨h, [], by simp, by simp⟩

namespace Alike

theorem send (h : Alike held held' out out') (bytes : List UInt8) :
    (out.send bytes).1 = (out'.send bytes).1 ∧ (out.send bytes).2.1 = (out'.send bytes).2.1 ∧
      Alike held held' (out.send bytes).2.2 (out'.send bytes).2.2 := by
  obtain ⟨hcount, hstop, hstops⟩ :=
    WriteRule.send_eq_of_stops_eq h.failsLike.stops bytes.length
  obtain ⟨sent, hbytes, hbytes'⟩ := h.bytes
  have hcount' : (out.send bytes).1 = (out'.send bytes).1 := hcount
  refine ⟨hcount', hstop, ⟨hstops, h.failsLike.flushes⟩,
    sent ++ bytes.take (out.send bytes).1, ?_, ?_⟩
  · rw [bytes_send, hbytes, List.append_assoc]
  · rw [bytes_send, hbytes', hcount', List.append_assoc]

theorem flush (h : Alike held held' out out') :
    SameAnswer (Alike held held') out.flush out'.flush := by
  obtain ⟨sent, hbytes, hbytes'⟩ := h.bytes
  refine .of_eq ?_ ⟨⟨?_, fun n => ?_⟩, sent, ?_, ?_⟩
  · rw [flush_eq, flush_eq, h.failsLike.flushes 0]
  · rw [flush_eq, flush_eq]
    exact h.failsLike.stops
  · rw [flush_eq, flush_eq, List.getElem?_tail, List.getElem?_tail]
    exact h.failsLike.flushes (n + 1)
  · rw [bytes_flush, hbytes]
  · rw [bytes_flush, hbytes']

theorem writeWhole (h : Alike held held' out out') (bytes : List UInt8) :
    SameAnswer (Alike held held') (out.writeWhole bytes) (out'.writeWhole bytes) := by
  obtain ⟨-, hstop, hout⟩ := h.send bytes
  unfold Output.writeWhole
  generalize out.send bytes = sent at hstop hout
  generalize out'.send bytes = sent' at hstop hout
  obtain ⟨count, stop?, out₁⟩ := sent
  obtain ⟨count', stop?', out₁'⟩ := sent'
  obtain rfl : stop? = stop?' := hstop
  rcases stop? with _ | _ | _ <;> exact .intro hout

/-- **Deliveries to outputs that fail alike** come to the same. -/
theorem deliver (h : Alike held held' out out') (texts : List String) :
    SameAnswer (Alike held held') (Output.deliver texts out) (Output.deliver texts out') := by
  induction texts generalizing out out' with
  | nil => exact h.flush
  | cons text texts ih =>
    have hwrite := h.writeWhole (Text.utf8 text)
    rw [Output.deliver, Output.deliver]
    generalize out.writeWhole (Text.utf8 text) = x at hwrite
    generalize out'.writeWhole (Text.utf8 text) = x' at hwrite
    obtain @⟨result, out₁, out₁', hout⟩ := hwrite
    cases result with
    | error fault => exact .intro hout
    | ok => exact ih hout

end Alike

end Output

/-! ### Documents -/

namespace Document

/-- Two documents that are the same but for their outputs, and these are alike. -/
structure Alike (held held' : List UInt8) (doc doc' : Document) : Prop where
  /-- All but the output is the same. -/
  frame : doc' = { doc with output := doc'.output }
  /-- The outputs are alike. -/
  output : doc.output.Alike held held' doc'.output

variable {held held' : List UInt8} {doc doc' : Document}

theorem Alike.start {out out' : Output} (h : out.FailsLike out') (metadata : Metadata) :
    Alike out.bytes out'.bytes (Document.start metadata out) (Document.start metadata out') :=
  ⟨rfl, h.alike⟩

namespace Alike

theorem exists_output (h : Alike held held' doc doc') :
    ∃ out', doc' = { doc with output := out' } ∧ doc.output.Alike held held' out' :=
  ⟨doc'.output, h.frame, h.output⟩

theorem sendHead (h : Alike held held' doc doc') :
    SameAnswer (Alike held held') doc.sendHead doc'.sendHead := by
  obtain ⟨out', rfl, hout⟩ := h.exists_output
  obtain ⟨hcount, hstop, hout₁⟩ := hout.send (doc.head.drop doc.headAccepted)
  unfold Document.sendHead
  dsimp only
  generalize doc.output.send (doc.head.drop doc.headAccepted) = sent at hcount hstop hout₁
  generalize out'.send (doc.head.drop doc.headAccepted) = sent' at hcount hstop hout₁
  obtain ⟨count, stop?, out₁⟩ := sent
  obtain ⟨count', stop?', out₁'⟩ := sent'
  obtain rfl : count = count' := hcount
  obtain rfl : stop? = stop?' := hstop
  rcases stop? with _ | _ | _ <;> exact .intro ⟨rfl, hout₁⟩

theorem deliver (h : Alike held held' doc doc') (texts : List String) :
    SameAnswer (Alike held held') (doc.deliver texts) (doc'.deliver texts) := by
  have hhead := h.sendHead
  unfold Document.deliver
  generalize doc.sendHead = x at hhead
  generalize doc'.sendHead = x' at hhead
  obtain @⟨result, doc₁, doc₁', hdoc⟩ := hhead
  cases result with
  | error fault => exact .intro hdoc
  | ok =>
    obtain ⟨out₁', rfl, hout₁⟩ := hdoc.exists_output
    have hdeliver := hout₁.deliver texts
    dsimp only
    generalize Output.deliver texts doc₁.output = x at hdeliver
    generalize Output.deliver texts out₁' = x' at hdeliver
    obtain ⟨hout⟩ := hdeliver
    exact .intro ⟨rfl, hout⟩

theorem write (h : Alike held held' doc doc') (element? : Option Element) :
    SameAnswer (Alike held held') (doc.write element?) (doc'.write element?) := by
  have hclosed : doc'.closed = doc.closed := by rw [h.frame]
  have hdeliver := h.deliver [markup element?, lineSeparator]
  unfold Document.write
  rw [hclosed]
  split_ifs
  · exact .intro h
  · exact .intro h
  generalize doc.deliver [markup element?, lineSeparator] = x at hdeliver
  generalize doc'.deliver [markup element?, lineSeparator] = x' at hdeliver
  obtain @⟨result, doc₁, doc₁', hdoc⟩ := hdeliver
  cases result with
  | error fault => exact .intro hdoc
  | ok =>
    obtain ⟨out₁', rfl, hout⟩ := hdoc.exists_output
    exact .intro ⟨rfl, hout⟩

theorem close (h : Alike held held' doc doc') :
    SameAnswer (Alike held held') (doc.close.result, doc.close.next)
      (doc'.close.result, doc'.close.next) := by
  obtain ⟨out', rfl, hout⟩ := h.exists_output
  unfold Document.close
  dsimp only
  split_ifs with hclosed hzero
  · exact .intro h
  · have hflush := hout.flush
    generalize doc.output.flush = x at hflush
    generalize out'.flush = x' at hflush
    obtain @⟨result, out₁, out₁', hout₁⟩ := hflush
    cases result with
    | error fault => exact .intro ⟨rfl, hout₁⟩
    | ok => exact .intro ⟨rfl, hout₁⟩
  · -- the documents count as closed already while the tail is delivered
    have hclosed' : Alike held held' { doc with closed := true }
        { doc with closed := true, output := out' } := ⟨rfl, hout⟩
    have hdeliver := hclosed'.deliver tailTexts
    generalize Document.deliver { doc with closed := true } tailTexts = x at hdeliver
    generalize Document.deliver { doc with closed := true, output := out' } tailTexts = x'
      at hdeliver
    obtain @⟨result, doc₁, doc₁', hdoc⟩ := hdeliver
    cases result with
    | error fault => exact .intro hdoc
    | ok => exact .intro hdoc

/-- **A call to documents that are alike** gets the same answer and leaves them alike. -/
theorem perform (h : Alike held held' doc doc') (call : Call) :
    SameAnswer (Alike held held') (doc.perform call) (doc'.perform call) := by
  cases hclosing : call.isClosing with
  | true =>
    rw [perform_of_isClosing hclosing, perform_of_isClosing hclosing]
    exact h.close
  | false =>
    cases call with
    | write element? => exact h.write element?
    | close | finish | abandon => cases hclosing

/-- **Runs of documents that are alike** go alike. -/
theorem history (h : Alike held held' doc doc') (calls : List Call) :
    List.Forall₂ (fun x x' : Turn => x.answer = x'.answer ∧ Alike held held' x.after x'.after)
        (Run.history Document.perform doc calls) (Run.history Document.perform doc' calls) ∧
      Alike held held' (Run.final Document.perform doc calls)
        (Run.final Document.perform doc' calls) :=
  Run.sameAnswer_history (fun _ _ call hdoc => perform hdoc call) h calls

end Alike

end Document

end DiagnosticReport
