import DiagnosticReport.Proofs.Run
import DiagnosticReport.Proofs.Stream.Delivery
import DiagnosticReport.Proofs.Stream.Framing

/-!
# Calls to a document

A document is used by calls: elements are written to it, it is closed, and it is closed for good
by taking its output back (`finish`) or by giving it up (`abandon`). `Document.perform` makes
these the inputs of a machine, so that any sequence of calls is a run.

A call either has nothing to deliver, and then the output keeps the bytes that it has, or a
definite sequence of bytes is due (`Document.due?`): the line of the element, or the closing tags.
`Document.Outcome` lists what can become of the head and of these bytes, and
`Document.outcome_exchange` says that nothing else can happen.
-/

namespace DiagnosticReport

open Markup

namespace Document

/-- A call to a document. -/
inductive Call where
  /-- Writes an element, if there is one. -/
  | write (element? : Option Element)
  /-- Closes the document. -/
  | close
  /-- Closes the document and takes its output back. -/
  | finish
  /-- Gives the document up. -/
  | abandon

/-- Whether a call closes the document. -/
def Call.isClosing : Call → Bool
  | .write _ => false
  | .close | .finish | .abandon => true

/-- A call, as one step of a machine. The caller who gives a document up gets no answer; the
answer here is that of the closing which it consists of. -/
def perform (doc : Document) : Call → Except ReportError Unit × Document
  | .write element? => doc.write element?
  | .close => (doc.close.result, doc.close.next)
  | .finish => (doc.finish.result.map fun _ => (), doc.finish.next)
  | .abandon => (doc.close.result, doc.abandon.1)

/-- A call with its answer, between two documents. -/
abbrev Turn := Exchange Document Call (Except ReportError Unit)

/-- The bytes that an element takes, with the line break behind it. -/
def lineBytes (element? : Option Element) : List UInt8 :=
  Text.utf8 (markup element? ++ lineSeparator)

/-- The bytes that a call has to deliver behind the head; `none` if there is nothing to do. -/
def due? (doc : Document) : Call → Option (List UInt8)
  | .write element? =>
    if doc.closed ∨ markup element? = "" then none else some (lineBytes element?)
  | .close | .finish | .abandon =>
    if doc.closed ∨ doc.headAccepted = 0 then none else some (Text.utf8 tailLines)

/-- What a call left at the output of the bytes that were due, `whole`. -/
inductive Leaves (x : Turn) (whole : List UInt8) : List UInt8 → Prop where
  /-- All of them: the call got as far as the flush. -/
  | all (flushed : x.after.output.flushed = x.before.output.flushed + 1) : Leaves x whole whole
  /-- A proper front part: a write failed. -/
  | torn {sent : List UInt8} {fault : Fault} (answer : x.answer = .error (.io fault))
      (flushed : x.after.output.flushed = x.before.output.flushed) (isPrefix : sent <+: whole)
      (ne : sent ≠ whole) : Leaves x whole sent

/-- What became of a call. -/
inductive Outcome (x : Turn) : Prop where
  /-- Nothing was due, nothing was sent. A call to write that succeeded had nothing to show. -/
  | idle (due : x.before.due? x.input = none)
      (blank : ∀ element?, x.input = .write element? → x.answer = .ok () → markup element? = "")
      (headAccepted : x.after.headAccepted = x.before.headAccepted)
      (bytes : x.after.output.bytes = x.before.output.bytes)
  /-- The output stopped in the middle of the head. -/
  | inHead {whole : List UInt8} {fault : Fault} {n : Nat}
      (due : x.before.due? x.input = some whole) (answer : x.answer = .error (.io fault))
      (headAccepted : x.after.headAccepted = x.before.headAccepted + n)
      (lt : x.after.headAccepted < x.before.head.length)
      (bytes : x.after.output.bytes = x.before.output.bytes ++ x.before.headRest.take n)
  /-- The head was completed, and `sent` was sent behind it. -/
  | behindHead {whole sent : List UInt8} (due : x.before.due? x.input = some whole)
      (headAccepted : x.after.headAccepted = x.before.head.length)
      (bytes : x.after.output.bytes = x.before.output.bytes ++ x.before.headRest ++ sent)
      (leaves : Leaves x whole sent)

/-! ### Writing and closing -/

/-- A call to write an element is refused, passed over, or delivers the line of the element. -/
theorem write_cases (doc : Document) (element? : Option Element) :
    (doc.closed = true ∧ doc.write element? = (.error .closed, doc)) ∨
    (doc.closed = false ∧ markup element? = "" ∧ doc.write element? = (.ok (), doc)) ∨
    (doc.closed = false ∧ markup element? ≠ "" ∧ ∃ result doc' written,
      doc.deliver [markup element?, lineSeparator] = (result, doc') ∧
      doc.write element? = (result.mapError .io, { doc' with written := written })) := by
  unfold write
  by_cases hclosed : doc.closed = true
  · exact .inl ⟨hclosed, if_pos hclosed⟩
  by_cases hblank : markup element? = ""
  · exact .inr (.inl ⟨by simpa using hclosed, hblank, by rw [if_neg hclosed, if_pos hblank]⟩)
  refine .inr (.inr ⟨by simpa using hclosed, hblank, ?_⟩)
  rw [if_neg hclosed, if_neg hblank]
  rcases hdeliver : doc.deliver [markup element?, lineSeparator] with ⟨result, doc'⟩
  cases result with
  | error fault => exact ⟨_, doc', doc'.written, rfl, rfl⟩
  | ok done => exact ⟨_, doc', doc'.written + 1, rfl, rfl⟩

/-- Closing has no effect, or only flushes, or delivers the tail. -/
theorem close_cases (doc : Document) :
    (doc.closed = true ∧ doc.close.result = .ok () ∧ doc.close.next = doc) ∨
    (doc.closed = false ∧ doc.headAccepted = 0 ∧
      doc.close.result = doc.output.flush.1.mapError .io ∧
      doc.close.next = { doc with closed := true, output := doc.output.flush.2 }) ∨
    (doc.closed = false ∧ doc.headAccepted ≠ 0 ∧ ∃ result doc',
      { doc with closed := true }.deliver tailTexts = (result, doc') ∧
      doc.close.result = result.mapError .io ∧ doc.close.next = doc') := by
  unfold close
  by_cases hclosed : doc.closed = true
  · simp [hclosed]
  by_cases hzero : doc.headAccepted = 0
  · refine .inr (.inl ⟨by simpa using hclosed, hzero, ?_⟩)
    rcases hflush : doc.output.flush with ⟨_ | _, out'⟩ <;> simp [hclosed, hzero, hflush] <;> rfl
  · refine .inr (.inr ⟨by simpa using hclosed, hzero, ?_⟩)
    rcases hdeliver : { doc with closed := true }.deliver tailTexts with ⟨_ | _, doc'⟩ <;>
      simp [hclosed, hzero, hdeliver] <;> rfl

theorem abandon_fst (doc : Document) : doc.abandon.1 = doc.close.next := by
  unfold abandon
  dsimp only
  split <;> rfl

theorem perform_of_isClosing {call : Call} (h : call.isClosing = true) (doc : Document) :
    doc.perform call = (doc.close.result, doc.close.next) := by
  cases call with
  | write => cases h
  | close => rfl
  | finish =>
    have hresult : (doc.finish.result.map fun _ => ()) = doc.close.result := by
      unfold finish
      dsimp only
      cases doc.close.result <;> rfl
    rw [perform, hresult]
    rfl
  | abandon => rw [perform, abandon_fst]

theorem due?_of_isClosing {call : Call} (h : call.isClosing = true) (doc : Document) :
    doc.due? call =
      if doc.closed ∨ doc.headAccepted = 0 then none else some (Text.utf8 tailLines) := by
  cases call with
  | write => cases h
  | close | finish | abandon => rfl

/-! ### Every call -/

theorem Delivery.head_eq {doc doc' : Document} {whole : List UInt8} {result : Except Fault Unit}
    (h : doc.Delivery whole result doc') : doc'.head = doc.head := by
  cases h <;> rfl

theorem Delivery.closed_eq {doc doc' : Document} {whole : List UInt8}
    {result : Except Fault Unit} (h : doc.Delivery whole result doc') :
    doc'.closed = doc.closed := by
  cases h <;> rfl

/-- A delivery gives the outcome of a call that passes its failures on. -/
theorem Outcome.of_delivery {x : Turn} {whole : List UInt8} {result : Except Fault Unit}
    {doc' : Document} {closed : Bool} (hdue : x.before.due? x.input = some whole)
    (hdelivery : { x.before with closed := closed }.Delivery whole result doc')
    (hanswer : x.answer = result.mapError .io)
    (hhead : x.after.headAccepted = doc'.headAccepted) (hout : x.after.output = doc'.output) :
    Outcome x := by
  cases hdelivery with
  | inHead lt bytes flushed =>
    exact .inHead hdue hanswer hhead (by rw [hhead]; exact lt) (by rw [hout]; exact bytes)
  | behindHead bytes flushed delivery =>
    cases delivery with
    | torn isPrefix ne bytes' flushed' =>
      exact .behindHead hdue hhead (by rw [hout, bytes', bytes]; rfl)
        (.torn hanswer (by rw [hout, flushed', flushed]) isPrefix ne)
    | whole bytes' flushed' =>
      exact .behindHead hdue hhead (by rw [hout, bytes', bytes]; rfl)
        (.all (by rw [hout, flushed', flushed]))

theorem outcome_of_isClosing {doc : Document} (h : doc.headAccepted ≤ doc.head.length)
    {call : Call} (hclosing : call.isClosing = true) :
    Outcome (Run.exchange perform doc call) ∧ (doc.perform call).2.head = doc.head ∧
      (doc.perform call).2.closed = true := by
  have hdue := due?_of_isClosing hclosing doc
  have hperform := perform_of_isClosing hclosing doc
  have hnowrite : ∀ element?, call = .write element? →
      (doc.perform call).1 = .ok () → markup element? = "" := by
    rintro element? rfl
    cases hclosing
  rw [hperform]
  rcases doc.close_cases with ⟨hclosed, -, hnext⟩ | ⟨-, hzero, -, hnext⟩ |
    ⟨hclosed, hzero, result, doc', hdeliver, hresult, hnext⟩
  · refine ⟨.idle ?_ hnowrite ?_ ?_, by rw [hnext], by rw [hnext, hclosed]⟩
    · simpa [hclosed] using hdue
    · simp [hperform, hnext]
    · simp [hperform, hnext]
  · refine ⟨.idle ?_ hnowrite ?_ ?_, by rw [hnext], by rw [hnext]⟩
    · simpa [hzero] using hdue
    · simp [hperform, hnext]
    · simp [hperform, hnext]
  · -- the document counts as closed already while the tail is delivered
    have hdelivery := @deliver_spec { doc with closed := true } h tailTexts
    rw [hdeliver, flatMap_tailTexts] at hdelivery
    refine ⟨.of_delivery ?_ hdelivery ?_ ?_ ?_, ?_, ?_⟩
    · simpa [hclosed, hzero] using hdue
    · simp [hperform, hresult]
    · simp [hperform, hnext]
    · simp [hperform, hnext]
    · exact hnext ▸ hdelivery.head_eq
    · exact hnext ▸ hdelivery.closed_eq

theorem outcome_write {doc : Document} (h : doc.headAccepted ≤ doc.head.length)
    (element? : Option Element) :
    Outcome (Run.exchange perform doc (.write element?)) ∧
      (doc.write element?).2.head = doc.head ∧ (doc.write element?).2.closed = doc.closed := by
  rcases doc.write_cases element? with ⟨hclosed, heq⟩ | ⟨-, hblank, heq⟩ |
    ⟨hclosed, hblank, result, doc', written, hdeliver, heq⟩
  · refine ⟨.idle ?_ (fun _ _ hok => ?_) ?_ ?_, by rw [heq], by rw [heq]⟩
    · simp [due?, hclosed]
    · simp [perform, heq] at hok
    · simp [perform, heq]
    · simp [perform, heq]
  · refine ⟨.idle ?_ (fun element?' hinput _ => ?_) ?_ ?_, by rw [heq], by rw [heq]⟩
    · simp [due?, hblank]
    · exact Call.write.inj hinput ▸ hblank
    · simp [perform, heq]
    · simp [perform, heq]
  · have hdelivery := deliver_spec h [markup element?, lineSeparator]
    rw [hdeliver] at hdelivery
    refine ⟨.of_delivery ?_ hdelivery ?_ ?_ ?_, ?_, ?_⟩
    · simp [due?, hclosed, hblank, lineBytes]
    · simp [perform, heq]
    · simp [perform, heq]
    · simp [perform, heq]
    · rw [heq]
      exact hdelivery.head_eq
    · rw [heq]
      exact hdelivery.closed_eq

/-- **What a call does.** Its outcome is one of the three, the head stays as it is, and the
document is closed by the closing calls and by no others. -/
theorem outcome_exchange {doc : Document} (h : doc.headAccepted ≤ doc.head.length)
    (call : Call) :
    Outcome (Run.exchange perform doc call) ∧ (doc.perform call).2.head = doc.head ∧
      (doc.perform call).2.closed = (doc.closed || call.isClosing) := by
  cases call with
  | write element? =>
    rw [Call.isClosing, Bool.or_false]
    exact outcome_write h element?
  | close | finish | abandon =>
    rw [Call.isClosing, Bool.or_true]
    exact outcome_of_isClosing h rfl

end Document

end DiagnosticReport
