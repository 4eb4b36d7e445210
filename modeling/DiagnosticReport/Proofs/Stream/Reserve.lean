import DiagnosticReport.Proofs.Stream.Calls

/-!
# Every failure is used up

What an output will do is laid down in advance, as rules for the writes to come and outcomes of the
flushes to come. How many of these are left is the reserve of the output (`Output.reserve`). No
operation adds to it, and one that fails has taken something away from it; so an operation that is
repeated until it succeeds is repeated finitely often (`Document.write_reserve`).
-/

namespace DiagnosticReport

open Markup

/-- What an operation costs: a failure costs one. -/
def failureCost {ε α : Type} : Except ε α → Nat
  | .ok _ => 0
  | .error _ => 1

@[simp] theorem failureCost_ok {ε α : Type} (a : α) :
    failureCost (.ok a : Except ε α) = 0 := rfl

@[simp] theorem failureCost_error {ε α : Type} (e : ε) :
    failureCost (.error e : Except ε α) = 1 := rfl

theorem WriteRule.length_rules_send (rules : List WriteRule) (n : Nat) :
    (send rules n).rules.length + (if (send rules n).stop? = none then 0 else 1) ≤
      rules.length := by
  fun_induction send rules n with
  | case1 | case2 | case3 | case5 | case7 => simp
  | case4 budget rules n _ _ rest ih =>
    have hrest : rest.rules.length + (if rest.stop? = none then 0 else 1) ≤ rules.length := ih
    rw [List.length_cons]
    show rest.rules.length + (if rest.stop? = none then 0 else 1) ≤ rules.length + 1
    omega
  | case6 fault rules n _ _ ih =>
    rw [List.length_cons]
    omega

namespace Output

/-- How many rules and outcomes of flushes an output has left. -/
def reserve (out : Output) : Nat :=
  out.rules.length + out.flushes.length

theorem reserve_send (out : Output) (bytes : List UInt8) :
    (out.send bytes).2.2.reserve + (if (out.send bytes).2.1 = none then 0 else 1) ≤
      out.reserve := by
  have hrules := WriteRule.length_rules_send out.rules bytes.length
  unfold reserve
  show (WriteRule.send out.rules bytes.length).rules.length + out.flushes.length +
    (if (WriteRule.send out.rules bytes.length).stop? = none then 0 else 1) ≤ _
  omega

theorem reserve_writeWhole (out : Output) (bytes : List UInt8) :
    (out.writeWhole bytes).2.reserve + failureCost (out.writeWhole bytes).1 ≤ out.reserve := by
  have hreserve := out.reserve_send bytes
  unfold writeWhole
  rcases hsend : out.send bytes with ⟨count, stop?, out'⟩
  rw [hsend] at hreserve
  rcases stop? with _ | _ | fault <;> simpa using hreserve

theorem reserve_flush (out : Output) :
    out.flush.2.reserve + failureCost out.flush.1 ≤ out.reserve := by
  unfold flush reserve
  split
  next h => simp [h]
  next h => simp [h]
  next h =>
    simp only [h, failureCost_error, List.length_cons]
    omega

theorem reserve_deliver (texts : List String) (out : Output) :
    (deliver texts out).2.reserve + failureCost (deliver texts out).1 ≤ out.reserve := by
  induction texts generalizing out with
  | nil => exact out.reserve_flush
  | cons text texts ih =>
    have hreserve := out.reserve_writeWhole (Text.utf8 text)
    unfold deliver
    rcases hwrite : out.writeWhole (Text.utf8 text) with ⟨result, out'⟩
    rw [hwrite] at hreserve
    cases result with
    | error fault => exact hreserve
    | ok done =>
      have hfirst : out'.reserve ≤ out.reserve := hreserve
      have hrest := ih out'
      show (deliver texts out').2.reserve + failureCost (deliver texts out').1 ≤ out.reserve
      omega

end Output

namespace Document

theorem reserve_sendHead (doc : Document) :
    doc.sendHead.2.output.reserve + failureCost doc.sendHead.1 ≤ doc.output.reserve := by
  have hreserve := doc.output.reserve_send (doc.head.drop doc.headAccepted)
  unfold sendHead
  rcases hsend : doc.output.send (doc.head.drop doc.headAccepted) with ⟨count, stop?, out'⟩
  rw [hsend] at hreserve
  rcases stop? with _ | _ | fault <;> simpa using hreserve

theorem reserve_deliver (doc : Document) (texts : List String) :
    (doc.deliver texts).2.output.reserve + failureCost (doc.deliver texts).1 ≤
      doc.output.reserve := by
  have hreserve := doc.reserve_sendHead
  unfold deliver
  rcases hhead : doc.sendHead with ⟨result, doc'⟩
  rw [hhead] at hreserve
  cases result with
  | error fault => exact hreserve
  | ok done =>
    have hfirst : doc'.output.reserve ≤ doc.output.reserve := hreserve
    have htexts := Output.reserve_deliver texts doc'.output
    show (Output.deliver texts doc'.output).2.reserve +
      failureCost (Output.deliver texts doc'.output).1 ≤ doc.output.reserve
    omega

theorem closed_sendHead (doc : Document) : doc.sendHead.2.closed = doc.closed := by
  unfold sendHead
  rcases doc.output.send (doc.head.drop doc.headAccepted) with ⟨count, _ | _ | fault, out'⟩ <;> rfl

theorem closed_deliver (doc : Document) (texts : List String) :
    (doc.deliver texts).2.closed = doc.closed := by
  have hclosed := doc.closed_sendHead
  unfold deliver
  rcases hhead : doc.sendHead with ⟨_ | done, doc'⟩ <;> rw [hhead] at hclosed <;> exact hclosed

/-- **What a write to an open document costs.** The document stays open, and a failure is one of
the output, which is used up. -/
theorem write_reserve {doc : Document} (h : doc.closed = false) (element? : Option Element) :
    (doc.write element?).2.closed = false ∧
      (doc.write element?).2.output.reserve + failureCost (doc.write element?).1 ≤
        doc.output.reserve ∧
      ∀ error, (doc.write element?).1 = .error error → ∃ fault, error = .io fault := by
  rcases doc.write_cases element? with ⟨hclosed, -⟩ | ⟨-, -, heq⟩ |
    ⟨-, -, result, doc', written, hdeliver, heq⟩
  · rw [h] at hclosed
    cases hclosed
  · rw [heq]
    exact ⟨h, Nat.le_refl _, by simp⟩
  · have hreserve := doc.reserve_deliver [markup element?, lineSeparator]
    have hclosed := doc.closed_deliver [markup element?, lineSeparator]
    rw [hdeliver] at hreserve hclosed
    rw [heq]
    refine ⟨hclosed.trans h, ?_, ?_⟩
    · cases result <;> exact hreserve
    · intro error herror
      cases result with
      | ok done => cases herror
      | error fault => exact ⟨fault, (Except.error.inj herror).symm⟩

end Document

end DiagnosticReport
