import DiagnosticReport.Proofs.Stream.Calls

/-!
# The shape of what a document sends

An output may refuse or fail at any byte of any call. What has arrived nevertheless has one of two
shapes (`Document.Shape`): a proper front part of the head, or the head, then one piece for each
element that was written behind it, then a front part of the tail. A piece is the line of its
element, or a proper front part of that if a write failed. `Document.bytes_final` proves it for
every sequence of calls; it is carried by an invariant of the calls made so far and the document
they left (`Document.Invariant`).
-/

namespace DiagnosticReport

open Markup

namespace Document

/-! ### The two shapes -/

/-- Whether a call wrote an element that shows something to a document that was open, and the head
is complete afterwards. -/
def pastHead (x : Turn) : Bool :=
  match x.input with
  | .write element? =>
    !x.before.closed && markup element? != "" && x.after.headAccepted == x.after.head.length
  | .close | .finish | .abandon => false

/-- The first call of a run that closes the document. -/
def firstClosing? (run : List Turn) : Option Turn :=
  run.find? fun x => x.input.isClosing

/-- What a call to write an element left of its line. -/
def LeavesLine (x : Turn) (piece : List UInt8) : Prop :=
  ∃ element?, x.input = .write element? ∧ Leaves x (lineBytes element?) piece

/-- The bytes that have arrived after a run that ended with `doc`. -/
inductive Shape (head : List UInt8) (run : List Turn) (doc : Document) : List UInt8 → Prop where
  /-- A proper front part of the head. No element came past it, and if the first closing
  succeeded, there was nothing to close. -/
  | inHead (lt : doc.headAccepted < head.length) (past : run.filter pastHead = [])
      (closing : ∀ x, firstClosing? run = some x → x.answer = .ok () → doc.headAccepted = 0) :
      Shape head run doc (head.take doc.headAccepted)
  /-- The head, the pieces, and what there is of the tail: nothing before the first closing, all
  of it if that succeeded. -/
  | behindHead {pieces : List (List UInt8)} {ending : List UInt8}
      (all : doc.headAccepted = head.length)
      (past : List.Forall₂ LeavesLine (run.filter pastHead) pieces)
      (isPrefix : ending <+: Text.utf8 tailLines) (opened : firstClosing? run = none → ending = [])
      (closing : ∀ x, firstClosing? run = some x → x.answer = .ok () →
        ending = Text.utf8 tailLines) :
      Shape head run doc (head ++ pieces.flatten ++ ending)

/-- A call goes on with the head where it stopped, and sends nothing else unless it completes
it. -/
def ContinuesHead (head : List UInt8) (x : Turn) : Prop :=
  ∃ n rest, x.after.headAccepted = x.before.headAccepted + n ∧
    x.after.headAccepted ≤ head.length ∧
    x.after.output.bytes =
      x.before.output.bytes ++ (head.drop x.before.headAccepted).take n ++ rest ∧
    (x.after.headAccepted < head.length → rest = [])

/-! ### What a call adds to a run -/

theorem firstClosing?_append (run : List Turn) (x : Turn) :
    firstClosing? (run ++ [x]) =
      (firstClosing? run).or (if x.input.isClosing then some x else none) := by
  simp only [firstClosing?, List.find?_append, List.find?_singleton]

theorem closed_of_due? {doc : Document} {call : Call} {whole : List UInt8}
    (h : doc.due? call = some whole) : doc.closed = false := by
  cases call with
  | write element? =>
    simp only [due?, Option.ite_none_left_eq_some, not_or] at h
    simpa using h.1.1
  | close | finish | abandon =>
    simp only [due?, Option.ite_none_left_eq_some, not_or] at h
    simpa using h.1.1

theorem eq_lineBytes_of_due? {doc : Document} {element? : Option Element} {whole : List UInt8}
    (h : doc.due? (.write element?) = some whole) : whole = lineBytes element? := by
  rw [due?, Option.ite_none_left_eq_some] at h
  exact (Option.some.inj h.2).symm

/-- The calls that got past the head are calls to write, with a line due and the head complete
afterwards. -/
theorem pastHead_iff {x : Turn} : pastHead x = true ↔
    ∃ element?, x.input = .write element? ∧ x.before.due? x.input = some (lineBytes element?) ∧
      x.after.headAccepted = x.after.head.length := by
  unfold pastHead
  split
  next element? hinput => simp [hinput, due?, and_assoc]
  all_goals
    next hinput => simp [hinput]

theorem filter_pastHead_append (run : List Turn) {x : Turn}
    (h : x.before.due? x.input = none ∨ x.after.headAccepted < x.after.head.length ∨
      x.input.isClosing = true) :
    (run ++ [x]).filter pastHead = run.filter pastHead := by
  have hpast : pastHead x = false := by
    rw [← Bool.not_eq_true, pastHead_iff]
    rintro ⟨element?, hinput, hdue, hall⟩
    rcases h with hnone | hlt | hclosing
    · rw [hnone] at hdue
      cases hdue
    · omega
    · rw [hinput] at hclosing
      cases hclosing
  simp [hpast]

/-! ### The invariant -/

/-- What holds between the calls made so far, the document that they left, and the bytes that the
output held at the start. -/
structure Invariant (head held : List UInt8) (run : List Turn) (doc : Document) : Prop where
  /-- The head stays as it is. -/
  head_eq : doc.head = head
  /-- No more of it is accepted than there is. -/
  le : doc.headAccepted ≤ head.length
  /-- The document is closed if it was closed once. -/
  closed : doc.closed = (firstClosing? run).isSome
  /-- A document that was closed untouched stays untouched. -/
  untouched : ∀ x, firstClosing? run = some x → x.before.headAccepted = 0 → doc.headAccepted = 0
  /-- What has arrived has one of the two shapes. -/
  shape : ∃ sent, doc.output.bytes = held ++ sent ∧ Shape head run doc sent
  /-- Every call went on with the head where the one before stopped. -/
  continued : ∀ x ∈ run, ContinuesHead head x
  /-- An element that was written with success came past the head. -/
  succeeded : ∀ x ∈ run, ∀ element?, x.input = .write element? → markup element? ≠ "" →
    x.answer = .ok () → pastHead x = true

/-- With the missing part of its head, what an open document has sent is the head and the
pieces. -/
theorem Shape.complete {head sent : List UInt8} {run : List Turn} {doc : Document}
    (h : Shape head run doc sent) (hopen : firstClosing? run = none) :
    ∃ pieces, List.Forall₂ LeavesLine (run.filter pastHead) pieces ∧
      sent ++ head.drop doc.headAccepted = head ++ pieces.flatten := by
  cases h with
  | inHead lt past closing =>
    exact ⟨[], by rw [past]; exact .nil, by simp [List.take_append_drop]⟩
  | @behindHead pieces ending all past isPrefix opened closing =>
    exact ⟨pieces, past, by simp [all, opened hopen]⟩

theorem Leaves.isPrefix {x : Turn} {whole sent : List UInt8} (h : Leaves x whole sent) :
    sent <+: whole := by
  cases h with
  | all flushed => exact List.prefix_rfl
  | torn answer flushed isPrefix ne => exact isPrefix

theorem Leaves.eq_of_ok {x : Turn} {whole sent : List UInt8} (h : Leaves x whole sent)
    (hok : x.answer = .ok ()) : sent = whole := by
  cases h with
  | all flushed => rfl
  | torn answer flushed isPrefix ne => simp [hok] at answer

theorem eq_some_of_firstClosing?_append {run : List Turn} {x y : Turn}
    (h : firstClosing? (run ++ [x]) = some y) :
    firstClosing? run = some y ∨
      firstClosing? run = none ∧ x.input.isClosing = true ∧ y = x := by
  rw [firstClosing?_append] at h
  cases hrun : firstClosing? run with
  | some z => exact .inl (by simpa [hrun] using h)
  | none =>
    rw [hrun, Option.none_or, Option.ite_none_right_eq_some] at h
    exact .inr ⟨rfl, h.1, (Option.some.inj h.2).symm⟩

theorem headAccepted_eq_zero {doc : Document} {call : Call} (hdue : doc.due? call = none)
    (hclosing : call.isClosing = true) (hclosed : doc.closed = false) : doc.headAccepted = 0 := by
  rw [due?_of_isClosing hclosing] at hdue
  simpa [hclosed] using hdue

variable {head held sent : List UInt8} {run : List Turn} {x : Turn}

theorem Shape.idle (h : Shape head run x.before sent) (hpos : 0 < head.length)
    (hclosed : firstClosing? run = none → x.before.closed = false)
    (hdue : x.before.due? x.input = none)
    (haccepted : x.after.headAccepted = x.before.headAccepted) :
    Shape head (run ++ [x]) x.after sent := by
  have hfilter := filter_pastHead_append run (.inl hdue)
  -- if this is the first closing, the document is untouched
  have hzero : firstClosing? run = none → x.input.isClosing = true → x.before.headAccepted = 0 :=
    fun hnone hclosing => headAccepted_eq_zero hdue hclosing (hclosed hnone)
  cases h with
  | inHead lt past closing =>
    rw [← haccepted]
    refine .inHead (haccepted ▸ lt) (hfilter.trans past) fun y hy hok => ?_
    rw [haccepted]
    rcases eq_some_of_firstClosing?_append hy with hold | ⟨hnone, hclosing, -⟩
    · exact closing y hold hok
    · exact hzero hnone hclosing
  | behindHead all past isPrefix opened closing =>
    refine .behindHead (haccepted.trans all) (hfilter ▸ past) isPrefix (fun hnone => opened ?_)
      fun y hy hok => ?_
    · rw [firstClosing?_append, Option.or_eq_none_iff] at hnone
      exact hnone.1
    · rcases eq_some_of_firstClosing?_append hy with hold | ⟨hnone, hclosing, -⟩
      · exact closing y hold hok
      · -- a head that is complete is not untouched
        have hnothing := hzero hnone hclosing
        omega

/-- A call that stops in the middle of the head goes on with the first shape. -/
theorem Shape.inHead_append (h : Shape head run x.before sent) (hopen : firstClosing? run = none)
    {fault : Fault} {n : Nat} (hanswer : x.answer = .error (.io fault))
    (haccepted : x.after.headAccepted = x.before.headAccepted + n)
    (hlt : x.after.headAccepted < head.length) (hhead : x.after.head = head) :
    Shape head (run ++ [x]) x.after (sent ++ (head.drop x.before.headAccepted).take n) := by
  have hfilter := filter_pastHead_append run (x := x) (.inr (.inl (by rw [hhead]; exact hlt)))
  cases h with
  | inHead lt past closing =>
    rw [← List.take_add, ← haccepted]
    refine .inHead hlt (hfilter.trans past) fun y hy hok => ?_
    rcases eq_some_of_firstClosing?_append hy with hold | ⟨-, -, rfl⟩
    · rw [hopen] at hold
      cases hold
    · rw [hanswer] at hok
      cases hok
  | behindHead all =>
    -- nothing was missing of the head
    omega

/-- A call that completes the head goes on with the second shape. -/
theorem Shape.behindHead_append (h : Shape head run x.before sent)
    (hopen : firstClosing? run = none) {whole piece : List UInt8}
    (hdue : x.before.due? x.input = some whole) (haccepted : x.after.headAccepted = head.length)
    (hhead : x.after.head = head) (hleaves : Leaves x whole piece) :
    Shape head (run ++ [x]) x.after (sent ++ head.drop x.before.headAccepted ++ piece) := by
  obtain ⟨pieces, hpast, hsent⟩ := h.complete hopen
  rw [hsent]
  by_cases hclosing : x.input.isClosing = true
  · -- the tail
    have hfirst : firstClosing? (run ++ [x]) = some x := by
      rw [firstClosing?_append, hopen, if_pos hclosing, Option.none_or]
    have hwhole : whole = Text.utf8 tailLines := by
      rw [due?_of_isClosing hclosing, Option.ite_none_left_eq_some] at hdue
      exact (Option.some.inj hdue.2).symm
    subst hwhole
    refine .behindHead haccepted ?_ hleaves.isPrefix (fun hnone => ?_) fun y hy hok => ?_
    · rw [filter_pastHead_append run (.inr (.inr hclosing))]
      exact hpast
    · rw [hfirst] at hnone
      cases hnone
    · obtain rfl : x = y := Option.some.inj (hfirst.symm.trans hy)
      exact hleaves.eq_of_ok hok
  · -- one more piece
    have hnone : firstClosing? (run ++ [x]) = none := by
      rw [firstClosing?_append, hopen, if_neg hclosing, Option.none_or]
    obtain ⟨element?, hinput⟩ : ∃ element?, x.input = .write element? := by
      cases hinput : x.input with
      | write element? => exact ⟨element?, rfl⟩
      | close | finish | abandon => exact absurd (by rw [hinput]; rfl) hclosing
    obtain rfl : whole = lineBytes element? := eq_lineBytes_of_due? (hinput ▸ hdue)
    have hx : pastHead x = true :=
      pastHead_iff.2 ⟨element?, hinput, hdue, by rw [haccepted, hhead]⟩
    have hfilter : (run ++ [x]).filter pastHead = run.filter pastHead ++ [x] := by
      simp [hx]
    have hpieces : head ++ pieces.flatten ++ piece = head ++ (pieces ++ [piece]).flatten ++ [] := by
      simp
    rw [hpieces]
    refine .behindHead haccepted ?_ List.nil_prefix (fun _ => rfl) fun y hy _ => ?_
    · rw [hfilter]
      exact List.rel_append hpast (.cons ⟨element?, hinput, hleaves⟩ .nil)
    · rw [hnone] at hy
      cases hy

theorem Outcome.continuesHead (h : Outcome x) (hhead : x.before.head = head)
    (hle : x.before.headAccepted ≤ head.length) : ContinuesHead head x := by
  subst hhead
  cases h with
  | idle due blank headAccepted bytes =>
    exact ⟨0, [], headAccepted, headAccepted ▸ hle, by simp [bytes], fun _ => rfl⟩
  | @inHead _ _ n due answer headAccepted lt bytes =>
    exact ⟨n, [], headAccepted, Nat.le_of_lt lt, by simpa [headRest] using bytes, fun _ => rfl⟩
  | @behindHead _ sent due headAccepted bytes leaves =>
    refine ⟨x.before.headRest.length, sent, ?_, Nat.le_of_eq headAccepted, ?_, fun hlt => ?_⟩
    · rw [headAccepted, headRest, List.length_drop]
      omega
    · rw [bytes, ← headRest, List.take_length]
    · omega

theorem Outcome.pastHead_of_ok (h : Outcome x) (hhead : x.after.head = x.before.head)
    {element? : Option Element} (hinput : x.input = .write element?)
    (hshows : markup element? ≠ "") (hok : x.answer = .ok ()) : pastHead x = true := by
  cases h with
  | idle due blank headAccepted bytes => exact absurd (blank element? hinput hok) hshows
  | inHead due answer => simp [hok] at answer
  | @behindHead whole sent due headAccepted bytes leaves =>
    obtain rfl : whole = lineBytes element? := eq_lineBytes_of_due? (hinput ▸ due)
    exact pastHead_iff.2 ⟨element?, hinput, due, by rw [headAccepted, hhead]⟩

/-- Every call keeps the invariant. -/
theorem Invariant.append (h : Invariant head held run x.before) (hpos : 0 < head.length)
    (houtcome : Outcome x) (hhead : x.after.head = x.before.head)
    (hclosed : x.after.closed = (x.before.closed || x.input.isClosing)) :
    Invariant head held (run ++ [x]) x.after := by
  obtain ⟨sent, hbytes, hshape⟩ := h.shape
  have hopen_iff : firstClosing? run = none ↔ x.before.closed = false := by
    rw [h.closed, Option.isSome_eq_false_iff, Option.isNone_iff_eq_none]
  have hcontinues := houtcome.continuesHead h.head_eq h.le
  refine ⟨hhead.trans h.head_eq, ?_, ?_, ?_, ?_, ?_, ?_⟩
  · obtain ⟨n, rest, -, hle, -⟩ := hcontinues
    exact hle
  · -- what the first closing call closed stays closed
    rw [hclosed, h.closed, firstClosing?_append]
    cases firstClosing? run <;> cases x.input.isClosing <;> rfl
  · intro y hy hzero
    -- either way nothing was due to a document whose head is untouched
    rcases eq_some_of_firstClosing?_append hy with hold | ⟨hnone, hclosing, rfl⟩
    · cases houtcome with
      | idle due blank headAccepted bytes => exact headAccepted.trans (h.untouched y hold hzero)
      | inHead due | behindHead due =>
        rw [hopen_iff.2 (closed_of_due? due)] at hold
        cases hold
    · have hdue : y.before.due? y.input = none := by rw [due?_of_isClosing hclosing]; simp [hzero]
      cases houtcome with
      | idle due blank headAccepted bytes => exact headAccepted.trans hzero
      | inHead due | behindHead due =>
        rw [hdue] at due
        cases due
  · cases houtcome with
    | idle due blank headAccepted bytes =>
      exact ⟨sent, bytes.trans hbytes, hshape.idle hpos hopen_iff.1 due headAccepted⟩
    | inHead due answer headAccepted lt bytes =>
      refine ⟨_, ?_, hshape.inHead_append (hopen_iff.2 (closed_of_due? due)) answer headAccepted
        (h.head_eq ▸ lt) (hhead.trans h.head_eq)⟩
      rw [bytes, hbytes, headRest, h.head_eq, List.append_assoc]
    | behindHead due headAccepted bytes leaves =>
      refine ⟨_, ?_, hshape.behindHead_append (hopen_iff.2 (closed_of_due? due)) due
        (h.head_eq ▸ headAccepted) (hhead.trans h.head_eq) leaves⟩
      rw [bytes, hbytes, headRest, h.head_eq]
      simp only [List.append_assoc]
  · intro y hy
    rcases List.mem_append.1 hy with hy | hy
    · exact h.continued y hy
    · rw [List.mem_singleton.1 hy]
      exact hcontinues
  · intro y hy element? hinput hshows hok
    rcases List.mem_append.1 hy with hy | hy
    · exact h.succeeded y hy element? hinput hshows hok
    · obtain rfl := List.mem_singleton.1 hy
      exact houtcome.pastHead_of_ok hhead hinput hshows hok

theorem Invariant.start {doc : Document} (hpos : 0 < doc.head.length)
    (hzero : doc.headAccepted = 0) (hopen : doc.closed = false) :
    Invariant doc.head doc.output.bytes [] doc := by
  refine ⟨rfl, by omega, by simp [firstClosing?, hopen], by simp [firstClosing?], ⟨[], ?_, ?_⟩,
    by simp, by simp⟩
  · rw [List.append_nil]
  · have hshape : Shape doc.head [] doc (doc.head.take doc.headAccepted) :=
      .inHead (by omega) rfl (by simp [firstClosing?])
    rwa [hzero, List.take_zero] at hshape

/-! ### Every run -/

/-- **The invariant of a run.** -/
theorem invariant_final (metadata : Metadata) (out : Output) (calls : List Call) :
    Invariant (Text.utf8 (headLines metadata)) out.bytes
      (Run.history perform (start metadata out) calls)
      (Run.final perform (start metadata out) calls) := by
  have hhead : (start metadata out).head = Text.utf8 (headLines metadata) := by
    rw [start, headText_eq_headLines]
  have hpos := length_utf8_headLines_pos metadata
  refine Run.induction (P := Invariant _ _) ?_ (fun run doc call h => ?_) calls
  · rw [← hhead] at hpos ⊢
    exact Invariant.start hpos rfl rfl
  · obtain ⟨houtcome, hhead, hclosed⟩ := outcome_exchange (h.head_eq ▸ h.le) call
    exact h.append (x := Run.exchange perform doc call) hpos houtcome hhead hclosed

/-- **The shape of what a document sends.** Whatever the output does and in whatever order the
document is written to, closed, finished and given up: what has arrived is a proper front part of
the head, or the head, one piece for each element that came past it, and a front part of the tail.
An element that was written with success has come past it. A document that is closed before
anything of its head was accepted sends nothing at all, and every call goes on with the head where
the one before stopped. -/
theorem bytes_final (metadata : Metadata) (out : Output) (calls : List Call) :
    ∃ sent, (Run.final perform (start metadata out) calls).output.bytes = out.bytes ++ sent ∧
      Shape (Text.utf8 (headLines metadata)) (Run.history perform (start metadata out) calls)
        (Run.final perform (start metadata out) calls) sent ∧
      (∀ x, firstClosing? (Run.history perform (start metadata out) calls) = some x →
        x.before.headAccepted = 0 → sent = []) ∧
      (∀ x ∈ Run.history perform (start metadata out) calls, ∀ element?,
        x.input = .write element? → markup element? ≠ "" → x.answer = .ok () →
          pastHead x = true) ∧
      ∀ x ∈ Run.history perform (start metadata out) calls,
        ContinuesHead (Text.utf8 (headLines metadata)) x := by
  have hpos := length_utf8_headLines_pos metadata
  have hinv := invariant_final metadata out calls
  obtain ⟨sent, hbytes, hshape⟩ := hinv.shape
  refine ⟨sent, hbytes, hshape, fun x hx hzero => ?_, hinv.succeeded, hinv.continued⟩
  have huntouched := hinv.untouched x hx hzero
  -- the second shape would need a head without bytes
  cases hshape with
  | inHead => rw [huntouched, List.take_zero]
  | behindHead all => omega

end Document

end DiagnosticReport
