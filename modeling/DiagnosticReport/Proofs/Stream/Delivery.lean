import DiagnosticReport.Stream.Document

/-!
# How far a delivery comes

To deliver bytes to an output is to write them, in one or several pieces, and to flush. Whatever
the output does, there are two ways in which this can end (`Output.Delivery`): a write fails, then
a proper front part of the bytes has been accepted and no flush has been tried; or all bytes have
been accepted and one flush has been tried, whose outcome is the outcome of the delivery. A
document delivers the rest of its head first, which may fail in the same way
(`Document.Delivery`).

* `Output.deliver_spec`, `Document.deliver_spec` : every delivery ends in one of these ways.
* `Output.Reliable` : an output that does no more than to split or interrupt writes. A delivery to
  such an output succeeds (`Output.Reliable.deliver`).
-/

namespace DiagnosticReport

/-! ### Outputs -/

namespace Output

/-- How far the delivery of `whole` to `out` came, with what result and what output it left. -/
inductive Delivery (out : Output) (whole : List UInt8) : Except Fault Unit → Output → Prop where
  /-- A write failed. -/
  | torn {sent : List UInt8} {fault : Fault} {out' : Output} (isPrefix : sent <+: whole)
      (ne : sent ≠ whole) (bytes : out'.bytes = out.bytes ++ sent)
      (flushed : out'.flushed = out.flushed) : Delivery out whole (.error fault) out'
  /-- All bytes were accepted. -/
  | whole {result : Except Fault Unit} {out' : Output} (bytes : out'.bytes = out.bytes ++ whole)
      (flushed : out'.flushed = out.flushed + 1) : Delivery out whole result out'

@[simp] theorem bytes_flush (out : Output) : out.flush.2.bytes = out.bytes := by
  unfold flush
  split <;> rfl

@[simp] theorem flushed_flush (out : Output) : out.flush.2.flushed = out.flushed + 1 := by
  unfold flush
  split <;> rfl

@[simp] theorem flushed_send (out : Output) (bytes : List UInt8) :
    (out.send bytes).2.2.flushed = out.flushed := rfl

theorem send_count_le (out : Output) (bytes : List UInt8) :
    (out.send bytes).1 ≤ bytes.length :=
  (WriteRule.send_count_le out.rules bytes.length).1

theorem send_stop?_eq_none_iff (out : Output) (bytes : List UInt8) :
    (out.send bytes).2.1 = none ↔ (out.send bytes).1 = bytes.length :=
  (WriteRule.send_count_le out.rules bytes.length).2

theorem writeWhole_cases (out : Output) (bytes : List UInt8) :
    (∃ out', out.writeWhole bytes = (.ok (), out') ∧ out'.bytes = out.bytes ++ bytes ∧
      out'.flushed = out.flushed) ∨
    ∃ fault out' sent, out.writeWhole bytes = (.error fault, out') ∧ sent <+: bytes ∧
      sent ≠ bytes ∧ out'.bytes = out.bytes ++ sent ∧ out'.flushed = out.flushed := by
  have hbytes := out.bytes_send bytes
  have hflushed := out.flushed_send bytes
  have hcount := out.send_count_le bytes
  have hstop := out.send_stop?_eq_none_iff bytes
  unfold writeWhole
  rcases hsend : out.send bytes with ⟨count, stop?, out'⟩
  simp only [hsend] at hbytes hflushed hcount hstop ⊢
  cases stop? with
  | none =>
    have hall : count = bytes.length := hstop.1 rfl
    exact .inl ⟨out', rfl, by rw [hbytes, hall, List.take_length], hflushed⟩
  | some stop =>
    -- whatever stopped the output, some bytes are missing
    have hlt : count < bytes.length := by
      have hne : count ≠ bytes.length := fun h => by simp [h] at hstop
      omega
    have hne : bytes.take count ≠ bytes := fun h => by
      have hlength := congrArg List.length h
      rw [List.length_take] at hlength
      omega
    refine .inr ?_
    cases stop with
    | refused => exact ⟨_, out', _, rfl, List.take_prefix _ _, hne, hbytes, hflushed⟩
    | failed fault => exact ⟨fault, out', _, rfl, List.take_prefix _ _, hne, hbytes, hflushed⟩

theorem Delivery.append {out out' out'' : Output} {first rest : List UInt8}
    {result : Except Fault Unit} (hbytes : out'.bytes = out.bytes ++ first)
    (hflushed : out'.flushed = out.flushed) (h : out'.Delivery rest result out'') :
    out.Delivery (first ++ rest) result out'' := by
  cases h with
  | torn isPrefix ne bytes flushed =>
    refine .torn ((List.prefix_append_right_inj first).2 isPrefix) (fun h => ne ?_)
      (by rw [bytes, hbytes, List.append_assoc]) (by rw [flushed, hflushed])
    exact List.append_cancel_left h
  | whole bytes flushed =>
    exact .whole (by rw [bytes, hbytes, List.append_assoc]) (by rw [flushed, hflushed])

/-- **The delivery of texts to an output.** -/
theorem deliver_spec (texts : List String) (out : Output) :
    out.Delivery (texts.flatMap Text.utf8) (deliver texts out).1 (deliver texts out).2 := by
  induction texts generalizing out with
  | nil => exact .whole (by simp [deliver]) (by simp [deliver])
  | cons text texts ih =>
    rw [deliver, List.flatMap_cons]
    rcases out.writeWhole_cases (Text.utf8 text) with
      ⟨out', heq, hbytes, hflushed⟩ | ⟨fault, out', sent, heq, hfront, hne, hbytes, hflushed⟩
    · rw [heq]
      exact (ih out').append hbytes hflushed
    · rw [heq]
      refine .torn (hfront.trans (List.prefix_append _ _)) (fun h => ?_) hbytes hflushed
      -- `sent` is shorter than `text` alone
      have hle := hfront.length_le
      have hlength := congrArg List.length h
      rw [List.length_append] at hlength
      exact hne (hfront.eq_of_length (by omega))

/-! ### Reliable outputs -/

end Output

/-- A rule that loses nothing: it accepts bytes or merely interrupts a write. -/
def WriteRule.Harmless : WriteRule → Prop
  | .accept _ => True
  | .refuse => False
  | .fail fault => fault.interrupted = true

theorem WriteRule.send_of_harmless {rules : List WriteRule} (n : Nat)
    (h : ∀ rule ∈ rules, rule.Harmless) :
    (send rules n).stop? = none ∧ ∀ rule ∈ (send rules n).rules, rule.Harmless := by
  fun_induction send rules n with
  | case1 rules => exact ⟨rfl, h⟩
  | case2 n => exact ⟨rfl, h⟩
  | case3 budget rules n =>
    refine ⟨rfl, fun rule hrule => ?_⟩
    rcases List.mem_cons.1 hrule with rfl | hrule
    · trivial
    · exact h rule (List.mem_cons_of_mem _ hrule)
  | case4 budget rules n _ _ _ ih =>
    exact ih fun rule hrule => h rule (List.mem_cons_of_mem _ hrule)
  | case5 rules n => exact (h _ List.mem_cons_self).elim
  | case6 fault rules n _ _ ih =>
    exact ih fun rule hrule => h rule (List.mem_cons_of_mem _ hrule)
  | case7 fault rules n _ hfault => exact absurd (h _ List.mem_cons_self) hfault

namespace Output

/-- An output that never fails for good: it may accept a write in pieces and interrupt it any
number of times. -/
structure Reliable (out : Output) : Prop where
  /-- No write fails. -/
  rules : ∀ rule ∈ out.rules, rule.Harmless
  /-- No flush fails. -/
  flushes : ∀ fault? ∈ out.flushes, fault? = none

theorem reliable_flawless : flawless.Reliable :=
  ⟨by simp [flawless], by simp [flawless]⟩

namespace Reliable

variable {out : Output}

theorem send (h : out.Reliable) (bytes : List UInt8) :
    (out.send bytes).2.1 = none ∧ (out.send bytes).2.2.Reliable := by
  obtain ⟨hstop, hrules⟩ := WriteRule.send_of_harmless bytes.length h.rules
  exact ⟨hstop, hrules, h.flushes⟩

theorem writeWhole (h : out.Reliable) (bytes : List UInt8) :
    ∃ out', out.writeWhole bytes = (.ok (), out') ∧ out'.Reliable := by
  obtain ⟨hstop, hreliable⟩ := h.send bytes
  unfold Output.writeWhole
  rcases hsend : out.send bytes with ⟨count, stop?, out'⟩
  rw [hsend] at hstop hreliable
  obtain rfl : stop? = none := hstop
  exact ⟨out', rfl, hreliable⟩

theorem flush (h : out.Reliable) : ∃ out', out.flush = (.ok (), out') ∧ out'.Reliable := by
  unfold Output.flush
  split
  next => exact ⟨_, rfl, h.rules, h.flushes⟩
  next rest heq =>
    refine ⟨_, rfl, h.rules, fun fault? hfault => h.flushes fault? ?_⟩
    rw [heq]
    exact List.mem_cons_of_mem _ hfault
  next fault rest heq => simpa using h.flushes (some fault) (by rw [heq]; exact List.mem_cons_self)

/-- **A delivery to a reliable output** succeeds. -/
theorem deliver (h : out.Reliable) (texts : List String) :
    ∃ out', Output.deliver texts out = (.ok (), out') ∧ out'.Reliable ∧
      out'.bytes = out.bytes ++ texts.flatMap Text.utf8 := by
  have hok : ∃ out', Output.deliver texts out = (.ok (), out') ∧ out'.Reliable := by
    induction texts generalizing out with
    | nil => exact h.flush
    | cons text texts ih =>
      obtain ⟨out', heq, h'⟩ := h.writeWhole (Text.utf8 text)
      rw [Output.deliver, heq]
      exact ih h'
  obtain ⟨out', heq, h'⟩ := hok
  refine ⟨out', heq, h', ?_⟩
  have hspec := deliver_spec texts out
  rw [heq] at hspec
  cases hspec with
  | whole bytes _ => exact bytes

end Reliable

end Output

/-! ### Documents -/

namespace Document

/-- What the output has not yet accepted of the head. -/
def headRest (doc : Document) : List UInt8 :=
  doc.head.drop doc.headAccepted

/-- How far a document came with the delivery of `whole` behind its head, with what result and
what document it left. -/
inductive Delivery (doc : Document) (whole : List UInt8) :
    Except Fault Unit → Document → Prop where
  /-- The head was not completed. -/
  | inHead {n : Nat} {fault : Fault} {out' : Output}
      (lt : doc.headAccepted + n < doc.head.length)
      (bytes : out'.bytes = doc.output.bytes ++ doc.headRest.take n)
      (flushed : out'.flushed = doc.output.flushed) :
      Delivery doc whole (.error fault)
        { doc with headAccepted := doc.headAccepted + n, output := out' }
  /-- The head was completed, which left the output `out₁`. -/
  | behindHead {result : Except Fault Unit} {out₁ out' : Output}
      (bytes : out₁.bytes = doc.output.bytes ++ doc.headRest)
      (flushed : out₁.flushed = doc.output.flushed) (delivery : out₁.Delivery whole result out') :
      Delivery doc whole result { doc with headAccepted := doc.head.length, output := out' }

/-- The head is completed, or the output stops in the middle of it. -/
theorem sendHead_cases {doc : Document} (h : doc.headAccepted ≤ doc.head.length) :
    (∃ out', doc.sendHead =
        (.ok (), { doc with headAccepted := doc.head.length, output := out' }) ∧
      out'.bytes = doc.output.bytes ++ doc.headRest ∧ out'.flushed = doc.output.flushed) ∨
    ∃ fault n out', doc.sendHead =
        (.error fault, { doc with headAccepted := doc.headAccepted + n, output := out' }) ∧
      doc.headAccepted + n < doc.head.length ∧
      out'.bytes = doc.output.bytes ++ doc.headRest.take n ∧
      out'.flushed = doc.output.flushed := by
  have hbytes := doc.output.bytes_send doc.headRest
  have hflushed := doc.output.flushed_send doc.headRest
  have hcount := doc.output.send_count_le doc.headRest
  have hstop := doc.output.send_stop?_eq_none_iff doc.headRest
  have hlength : doc.headRest.length = doc.head.length - doc.headAccepted := List.length_drop
  unfold sendHead
  rcases hsend : doc.output.send doc.headRest with ⟨n, stop?, out'⟩
  simp only [hsend] at hbytes hflushed hcount hstop
  rw [headRest] at hsend
  simp only [hsend]
  cases stop? with
  | none =>
    have hall : n = doc.headRest.length := hstop.1 rfl
    have hend : doc.headAccepted + n = doc.head.length := by omega
    exact .inl ⟨out', by rw [hend], by rw [hbytes, hall, List.take_length], hflushed⟩
  | some stop =>
    have hlt : doc.headAccepted + n < doc.head.length := by
      have hne : n ≠ doc.headRest.length := fun h => by simp [h] at hstop
      omega
    refine .inr ?_
    cases stop with
    | refused => exact ⟨_, n, out', rfl, hlt, hbytes, hflushed⟩
    | failed fault => exact ⟨fault, n, out', rfl, hlt, hbytes, hflushed⟩

/-- **The delivery of texts behind the head.** -/
theorem deliver_spec {doc : Document} (h : doc.headAccepted ≤ doc.head.length)
    (texts : List String) :
    doc.Delivery (texts.flatMap Text.utf8) (doc.deliver texts).1 (doc.deliver texts).2 := by
  unfold deliver
  rcases sendHead_cases h with
    ⟨out₁, heq, hbytes, hflushed⟩ | ⟨fault, n, out', heq, hlt, hbytes, hflushed⟩
  · rw [heq]
    exact .behindHead hbytes hflushed (Output.deliver_spec texts out₁)
  · rw [heq]
    exact .inHead hlt hbytes hflushed

theorem sendHead_of_reliable {doc : Document} (h : doc.headAccepted ≤ doc.head.length)
    (hreliable : doc.output.Reliable) :
    ∃ out', doc.sendHead =
        (.ok (), { doc with headAccepted := doc.head.length, output := out' }) ∧
      out'.Reliable ∧ out'.bytes = doc.output.bytes ++ doc.headRest := by
  obtain ⟨hstop, hreliable'⟩ := hreliable.send doc.headRest
  rcases sendHead_cases h with ⟨out', heq, hbytes, -⟩ | ⟨fault, n, out', heq, -⟩
  -- in the second case the output would have stopped
  all_goals
    unfold sendHead at heq
    rw [headRest] at hstop hreliable'
    simp only [hstop, Prod.mk.injEq, reduceCtorEq, false_and, true_and] at heq
  have hout : (doc.output.send (doc.head.drop doc.headAccepted)).2.2 = out' :=
    congrArg Document.output heq
  exact ⟨out', by simp only [sendHead, hstop, heq], hout ▸ hreliable', hbytes⟩

theorem deliver_of_reliable {doc : Document} (h : doc.headAccepted ≤ doc.head.length)
    (hreliable : doc.output.Reliable) (texts : List String) :
    ∃ out', doc.deliver texts =
        (.ok (), { doc with headAccepted := doc.head.length, output := out' }) ∧
      out'.Reliable ∧
      out'.bytes = doc.output.bytes ++ doc.headRest ++ texts.flatMap Text.utf8 := by
  obtain ⟨out₁, hhead, hreliable₁, hbytes₁⟩ := sendHead_of_reliable h hreliable
  obtain ⟨out', hdeliver, hreliable', hbytes'⟩ := hreliable₁.deliver texts
  refine ⟨out', ?_, hreliable', by rw [hbytes', hbytes₁]⟩
  unfold deliver
  rw [hhead]
  simp only [hdeliver]

end Document

end DiagnosticReport
