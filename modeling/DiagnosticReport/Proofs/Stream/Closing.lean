import DiagnosticReport.Proofs.Stream.Shape

/-!
# What a successful closing says

A document is closed by the first call that closes it, whatever that call comes to: every later
call finds a closed document, and has no effect on it (`Document.perform_of_closed`). So a closing
call that succeeds says something about the output only if the first one came as far as to flush
it. Then nothing has arrived, or the two closing tags have arrived last
(`Document.terminated_of_closing`). A first closing that failed at a closing tag leaves a document
without end, and to close it again succeeds (`Document.unterminated_closed_again`).

Between the head and the closing tags stand whole lines, as long as no write failed in the middle
of one (`Document.whole_lines_of_close`). The front part of a line that was torn stays where it is,
and the document can be continued and closed with success (`Document.torn_line_closed`).
-/

namespace DiagnosticReport

open Markup

namespace Document

/-! ### Documents that have been closed -/

/-- **A closed document** is left as it is by every call, and every closing call succeeds. -/
theorem perform_of_closed {doc : Document} (h : doc.closed = true) (call : Call) :
    (doc.perform call).2 = doc ∧
      (call.isClosing = true → (doc.perform call).1 = .ok ()) := by
  have hclose : doc.close = { result := .ok (), next := doc } := if_pos h
  cases hcall : call.isClosing with
  | true =>
    rw [perform_of_isClosing hcall, hclose]
    exact ⟨rfl, fun _ => rfl⟩
  | false =>
    cases call with
    | write element? => exact ⟨by simp [perform, write, h], by simp⟩
    | close | finish | abandon => cases hcall

theorem after_eq_of_closed {doc : Document} (h : doc.closed = true) (calls : List Call) :
    ∀ x ∈ Run.history perform doc calls, x.after = doc := by
  induction calls with
  | nil => simp
  | cons call calls ih =>
    obtain ⟨hnext, -⟩ := perform_of_closed h call
    rw [Run.history_cons, List.forall_mem_cons, hnext]
    exact ⟨hnext, ih⟩

/-! ### The first closing -/

/-- A closing call came as far as to flush the output, or succeeded. -/
def CameToFlush (x : Turn) : Prop :=
  x.answer = .ok () ∨ x.after.output.flushed = x.before.output.flushed + 1

theorem Delivery.bytes_of_flushed {doc doc' : Document} {whole : List UInt8}
    {result : Except Fault Unit} (hdelivery : doc.Delivery whole result doc')
    (h : result = .ok () ∨ doc'.output.flushed = doc.output.flushed + 1) :
    doc'.output.bytes = doc.output.bytes ++ doc.headRest ++ whole := by
  -- a write that failed came before the flush
  have htorn : ∀ {fault : Fault}, doc'.output.flushed = doc.output.flushed →
      ¬ ((.error fault : Except Fault Unit) = .ok () ∨
        doc'.output.flushed = doc.output.flushed + 1) := by
    rintro fault hsame (hok | hflushed)
    · cases hok
    · omega
  cases hdelivery with
  | inHead lt bytes flushed => exact absurd h (htorn flushed)
  | behindHead bytes flushed delivery =>
    cases delivery with
    | torn isPrefix ne bytes' flushed' => exact absurd h (htorn (flushed'.trans flushed))
    | whole bytes' flushed' => exact bytes'.trans (by rw [bytes])

/-- **A first closing that came to the flush** has sent nothing, to an untouched document, or the
rest of the head and the whole tail. -/
theorem bytes_of_cameToFlush {doc : Document} (hopen : doc.closed = false)
    (hle : doc.headAccepted ≤ doc.head.length)
    (h : doc.close.result = .ok () ∨
      doc.close.next.output.flushed = doc.output.flushed + 1) :
    (doc.headAccepted = 0 ∧ doc.close.next.output.bytes = doc.output.bytes) ∨
      doc.close.next.output.bytes = doc.output.bytes ++ doc.headRest ++ Text.utf8 tailLines := by
  rcases doc.close_cases with ⟨hclosed, -⟩ | ⟨-, hzero, -, hnext⟩ |
    ⟨-, -, result, doc', hdeliver, hresult, hnext⟩
  · rw [hopen] at hclosed
    cases hclosed
  · rw [hnext]
    exact .inl ⟨hzero, doc.output.bytes_flush⟩
  · have hdelivery := @deliver_spec { doc with closed := true } hle tailTexts
    rw [hdeliver, flatMap_tailTexts] at hdelivery
    rw [hresult, hnext] at h
    rw [hnext]
    refine .inr (hdelivery.bytes_of_flushed (h.imp_left fun hok => ?_))
    cases result with
    | ok done => rfl
    | error fault => cases hok

theorem Shape.eq_nil_of_headAccepted_eq_zero {head sent : List UInt8} {run : List Turn}
    {doc : Document} (h : Shape head run doc sent) (hpos : 0 < head.length)
    (hzero : doc.headAccepted = 0) : sent = [] := by
  cases h with
  | inHead => rw [hzero, List.take_zero]
  | behindHead all => omega

/-- The first closing call of a run meets an open document that was left by the calls before it,
and what it leaves is what every later call leaves. -/
theorem exists_of_firstClosing? {metadata : Metadata} {out : Output} {calls : List Call}
    {y : Turn} (h : firstClosing? (Run.history perform (start metadata out) calls) = some y) :
    ∃ earlier, y.before = Run.final perform (start metadata out) earlier ∧
      firstClosing? (Run.history perform (start metadata out) earlier) = none ∧
      y.answer = y.before.close.result ∧ y.after = y.before.close.next ∧
      ∀ x ∈ Run.history perform (start metadata out) calls, x.input.isClosing = true →
        x.after = y.after := by
  obtain ⟨hclosing, pre, post, hsplit, hpre⟩ := List.find?_eq_some_iff_append.1 h
  obtain ⟨earlier, call, later, -, rfl, rfl, rfl⟩ := Run.history_eq_append_cons hsplit
  have hinv := invariant_final metadata out earlier
  have hperform := perform_of_isClosing hclosing (Run.final perform (start metadata out) earlier)
  obtain ⟨-, -, hclosed⟩ := outcome_exchange (hinv.head_eq ▸ hinv.le) call
  refine ⟨earlier, rfl, ?_, congrArg Prod.fst hperform, congrArg Prod.snd hperform, ?_⟩
  · refine List.find?_eq_none.2 fun x hx hxclosing => ?_
    simpa [hxclosing] using hpre x hx
  · intro x hx hxclosing
    rw [hsplit] at hx
    rcases List.mem_append.1 hx with hx | hx
    · simpa [hxclosing] using hpre x hx
    · rcases List.mem_cons.1 hx with rfl | hx
      · rfl
      · refine after_eq_of_closed ?_ later x hx
        rw [Run.exchange_after, hclosed]
        exact Bool.or_eq_true_iff.2 (.inr hclosing)

/-- **What a successful closing says.** If the first closing call of a run came as far as to flush
the output, then whenever a closing call succeeds, nothing has arrived or the two closing tags have
arrived last. Whatever the first closing call came to, later calls leave the document as it is,
and those that close it succeed. -/
theorem terminated_of_closing (metadata : Metadata) (out : Output) (calls : List Call) :
    (∀ y, firstClosing? (Run.history perform (start metadata out) calls) = some y →
      CameToFlush y →
      ∀ x ∈ Run.history perform (start metadata out) calls, x.input.isClosing = true →
        x.answer = .ok () →
        ∃ sent, x.after.output.bytes = out.bytes ++ sent ∧
          (sent = [] ∨ Text.utf8 tailLines <:+ sent)) ∧
    ∀ x ∈ Run.history perform (start metadata out) calls, x.before.closed = true →
      x.after = x.before ∧ (x.input.isClosing = true → x.answer = .ok ()) := by
  refine ⟨fun y hy hflush x hx hclosing _ => ?_, fun x hx hclosed => ?_⟩
  · obtain ⟨earlier, hbefore, hnone, hanswer, hafter, hlater⟩ := exists_of_firstClosing? hy
    have hinv := invariant_final metadata out earlier
    rw [← hbefore] at hinv
    obtain ⟨sent, hbytes, hshape⟩ := hinv.shape
    have hopen : y.before.closed = false := by
      rw [hinv.closed, hnone]
      rfl
    have hpos := length_utf8_headLines_pos metadata
    rw [CameToFlush, hanswer, hafter] at hflush
    -- from the first closing call on, the document stays as it is
    rw [hlater x hx hclosing, hafter]
    rcases bytes_of_cameToFlush hopen (hinv.head_eq ▸ hinv.le) hflush with
      ⟨hzero, hsame⟩ | htail
    · obtain rfl := hshape.eq_nil_of_headAccepted_eq_zero hpos hzero
      exact ⟨[], by rw [hsame, hbytes], .inl rfl⟩
    · refine ⟨sent ++ y.before.headRest ++ Text.utf8 tailLines, ?_, .inr (List.suffix_append _ _)⟩
      rw [htail, hbytes]
      simp only [List.append_assoc]
  · have hx := Run.eq_exchange_of_mem hx
    obtain ⟨hnext, hok⟩ := perform_of_closed hclosed x.input
    rw [hx]
    exact ⟨hnext, hok⟩

/-- A first closing that failed in its flush, and a second one that hands over the output. -/
theorem terminated_of_closing_unflushed :
    ∃ y, firstClosing? (Run.history perform
        (start ⟨⟨"", ""⟩⟩ { flushes := [none, some ⟨"disk full", false⟩] })
        [.write (Entry.element? (.info ⟨.execve, "x"⟩)), .close, .finish]) = some y ∧
      CameToFlush y ∧
      ∃ x ∈ Run.history perform
          (start ⟨⟨"", ""⟩⟩ { flushes := [none, some ⟨"disk full", false⟩] })
          [.write (Entry.element? (.info ⟨.execve, "x"⟩)), .close, .finish],
        x.input.isClosing = true ∧ x.answer = .ok () ∧
        ∃ sent, x.after.output.bytes = [] ++ sent ∧
          (sent = [] ∨ Text.utf8 tailLines <:+ sent) := by
  obtain ⟨hterminated, -⟩ := terminated_of_closing ⟨⟨"", ""⟩⟩
    { flushes := [none, some ⟨"disk full", false⟩] }
    [.write (Entry.element? (.info ⟨.execve, "x"⟩)), .close, .finish]
  refine ⟨_, rfl, .inr (by decide +kernel), _, .tail _ (.tail _ (.head _)), rfl,
    by decide +kernel, ?_⟩
  exact hterminated _ rfl (.inr (by decide +kernel)) _ (.tail _ (.tail _ (.head _))) rfl
    (by decide +kernel)

/-- An output that fails in the middle of the first closing tag. The first call to close the
document fails, the second one succeeds, and what has arrived is not terminated. -/
theorem unterminated_closed_again :
    ∃ x ∈ Run.history perform
        (start ⟨⟨"", ""⟩⟩ { rules := [.accept 80, .fail ⟨"disk full", false⟩] })
        [.write (Entry.element? (.info ⟨.execve, "x"⟩)), .close, .close],
      x.input.isClosing = true ∧ x.answer = .ok () ∧ x.after.output.bytes ≠ [] ∧
        ¬ Text.utf8 tailLines <:+ x.after.output.bytes := by
  refine ⟨_, .tail _ (.tail _ (.head _)), rfl, ?_, ?_, ?_⟩
  all_goals decide +kernel

/-! ### Whole lines -/

/-- What a call has sent behind the head. -/
def lineSent (x : Turn) : List UInt8 :=
  x.after.output.bytes.drop (x.before.output.bytes ++ x.before.headRest).length

/-- What a call has sent completes the head, as far as it is missing, and goes on behind it with
what the call leaves of the bytes that are due. -/
theorem Outcome.lineSent_spec {x : Turn} (h : Outcome x) (hhead : x.after.head = x.before.head) :
    x.after.output.bytes ++ x.after.headRest =
      x.before.output.bytes ++ x.before.headRest ++ lineSent x ∧
    (lineSent x = [] ∨
      ∃ whole, x.before.due? x.input = some whole ∧ Leaves x whole (lineSent x)) := by
  cases h with
  | idle due blank headAccepted bytes =>
    have hnone : lineSent x = [] := by
      rw [lineSent, bytes, List.drop_eq_nil_iff, List.length_append]
      omega
    refine ⟨?_, .inl hnone⟩
    rw [hnone, bytes, headRest, headRest, headAccepted, hhead, List.append_nil]
  | @inHead _ _ n due answer headAccepted lt bytes =>
    have hnone : lineSent x = [] := by
      rw [lineSent, bytes, List.drop_eq_nil_iff, List.length_append, List.length_append,
        List.length_take]
      omega
    have hrest : x.before.headRest.take n ++ x.after.headRest = x.before.headRest := by
      rw [headRest, headRest, headAccepted, hhead, ← List.drop_drop, List.take_append_drop]
    refine ⟨?_, .inl hnone⟩
    rw [hnone, bytes, List.append_assoc, hrest, List.append_nil]
  | @behindHead whole sent due headAccepted bytes leaves =>
    have hsent : lineSent x = sent := by
      rw [lineSent, bytes, List.drop_left]
    have hrest : x.after.headRest = [] := by
      rw [headRest, headAccepted, hhead, List.drop_length]
    rw [hsent, hrest, bytes, List.append_nil]
    exact ⟨rfl, .inr ⟨whole, due, leaves⟩⟩

theorem Leaves.eq_of_flushed {x : Turn} {whole sent : List UInt8} (h : Leaves x whole sent)
    (hflushed : x.after.output.flushed = x.before.output.flushed + 1) : sent = whole := by
  cases h with
  | all flushed => rfl
  | torn answer flushed isPrefix ne => omega

/-- The line of an element that came to its flush is whole, if any of it was sent; an element that
shows nothing has no line. -/
theorem lineSent_of_write {x : Turn} (h : Outcome x) (hhead : x.after.head = x.before.head)
    {element? : Option Element} (hinput : x.input = .write element?)
    (hflushed : lineSent x ≠ [] → x.after.output.flushed = x.before.output.flushed + 1) :
    lineSent x = [] ∨ markup element? ≠ "" ∧ lineSent x = lineBytes element? := by
  obtain ⟨-, hnone | ⟨whole, hdue, hleaves⟩⟩ := h.lineSent_spec hhead
  · exact .inl hnone
  by_cases hsent : lineSent x = []
  · exact .inl hsent
  rw [hinput, due?, Option.ite_none_left_eq_some, not_or] at hdue
  obtain ⟨⟨-, hshows⟩, hwhole⟩ := hdue
  rw [hleaves.eq_of_flushed (hflushed hsent)]
  exact .inr ⟨hshows, (Option.some.inj hwhole).symm⟩

/-- The lines of those elements that show something, in order. -/
def linesOf (elements : List (Option Element)) : List (List UInt8) :=
  (elements.filter fun element? => markup element? != "").map lineBytes

/-- **What a run of writes has sent behind the head.** If every element of which something was
sent came to its flush, these are the whole lines of some of the elements. -/
theorem lines_of_writes {doc : Document} (h : doc.headAccepted ≤ doc.head.length)
    (elements : List (Option Element))
    (hflushed : ∀ x ∈ Run.history perform doc (elements.map .write),
      lineSent x ≠ [] → x.after.output.flushed = x.before.output.flushed + 1) :
    ∃ pieces : List (List UInt8), pieces.Sublist (linesOf elements) ∧
      (Run.final perform doc (elements.map .write)).output.bytes ++
        (Run.final perform doc (elements.map .write)).headRest =
      doc.output.bytes ++ doc.headRest ++ pieces.flatten := by
  induction elements generalizing doc with
  | nil => exact ⟨[], List.Sublist.refl _, by simp⟩
  | cons element? elements ih =>
    obtain ⟨houtcome, hhead, -⟩ := outcome_exchange h (.write element?)
    obtain ⟨-, -, -, hle, -⟩ := houtcome.continuesHead rfl h
    rw [List.map_cons, Run.history_cons, List.forall_mem_cons] at hflushed
    obtain ⟨pieces, hpieces, hbytes⟩ := ih (hhead.symm ▸ hle) hflushed.2
    obtain ⟨hsent, -⟩ := houtcome.lineSent_spec hhead
    rw [Run.exchange_after, Run.exchange_before] at hsent
    rcases lineSent_of_write houtcome hhead rfl hflushed.1 with hnone | ⟨hshows, hline⟩
    · have hlater : (linesOf elements).Sublist (linesOf (element? :: elements)) :=
        ((List.sublist_cons_self element? elements).filter _).map _
      refine ⟨pieces, hpieces.trans hlater, ?_⟩
      rw [List.map_cons, Run.final_cons, hbytes, hsent, hnone, List.append_nil]
    · have hfirst : linesOf (element? :: elements) = lineBytes element? :: linesOf elements := by
        rw [linesOf, List.filter_cons_of_pos (by simpa using hshows), List.map_cons, linesOf]
      refine ⟨lineBytes element? :: pieces, hfirst ▸ hpieces.cons_cons _, ?_⟩
      rw [List.map_cons, Run.final_cons, hbytes, hsent, hline, List.flatten_cons,
        List.append_assoc]

theorem firstClosing?_of_writes (doc : Document) (elements : List (Option Element)) :
    firstClosing? (Run.history perform doc (elements.map .write)) = none := by
  refine List.find?_eq_none.2 fun x hx => ?_
  have hinput : x.input ∈ (Run.history perform doc (elements.map .write)).map Exchange.input :=
    List.mem_map_of_mem hx
  rw [Run.map_input_history] at hinput
  obtain ⟨element?, -, hwrite⟩ := List.mem_map.1 hinput
  rw [← hwrite]
  exact Bool.false_ne_true

/-- **Whole lines.** If a document can be closed after some elements were written to it, and every
element that sent something behind the head came to its flush, then nothing has arrived, or the
head, the whole lines of some of these elements in order, and the tail. -/
theorem whole_lines_of_close (metadata : Metadata) (out : Output)
    (elements : List (Option Element))
    (hok : (Run.final perform (start metadata out) (elements.map .write)).close.result = .ok ())
    (hflushed : ∀ x ∈ Run.history perform (start metadata out) (elements.map .write),
      lineSent x ≠ [] → x.after.output.flushed = x.before.output.flushed + 1) :
    ∃ sent, (Run.final perform (start metadata out)
        (elements.map .write)).close.next.output.bytes = out.bytes ++ sent ∧
      (sent = [] ∨ ∃ pieces : List (List UInt8), pieces.Sublist (linesOf elements) ∧
        sent = Text.utf8 (headLines metadata) ++ pieces.flatten ++ Text.utf8 tailLines) := by
  have hinv := invariant_final metadata out (elements.map .write)
  have hopen : (Run.final perform (start metadata out) (elements.map .write)).closed = false := by
    rw [hinv.closed, firstClosing?_of_writes]
    rfl
  rcases bytes_of_cameToFlush hopen (hinv.head_eq ▸ hinv.le) (.inl hok) with
    ⟨hzero, hsame⟩ | htail
  · obtain ⟨sent, hbytes, hshape⟩ := hinv.shape
    obtain rfl := hshape.eq_nil_of_headAccepted_eq_zero (length_utf8_headLines_pos metadata) hzero
    exact ⟨[], by rw [hsame, hbytes], .inl rfl⟩
  · obtain ⟨pieces, hpieces, hbytes⟩ := lines_of_writes (Nat.zero_le _) elements hflushed
    have hhead : (start metadata out).headRest = Text.utf8 (headLines metadata) :=
      congrArg Text.utf8 (headText_eq_headLines metadata)
    refine ⟨_, ?_, .inr ⟨pieces, hpieces, rfl⟩⟩
    rw [htail, hbytes, hhead]
    simp only [start, List.append_assoc]

/-- An output that fails in the head at first and then in a flush: the element is written in
whole lines. -/
theorem whole_lines_of_close_retried :
    (Run.final perform
      (start ⟨⟨"", ""⟩⟩ { rules := [.accept 5, .refuse], flushes := [some ⟨"busy", true⟩] })
      (List.map .write (List.replicate 3 (Entry.element? (.info ⟨.execve, "x"⟩))))).close.result =
      .ok () ∧
    (∀ x ∈ Run.history perform
        (start ⟨⟨"", ""⟩⟩ { rules := [.accept 5, .refuse], flushes := [some ⟨"busy", true⟩] })
        (List.map .write (List.replicate 3 (Entry.element? (.info ⟨.execve, "x"⟩)))),
      lineSent x ≠ [] → x.after.output.flushed = x.before.output.flushed + 1) ∧
    ∃ sent, (Run.final perform
        (start ⟨⟨"", ""⟩⟩ { rules := [.accept 5, .refuse], flushes := [some ⟨"busy", true⟩] })
        (List.map .write (List.replicate 3
          (Entry.element? (.info ⟨.execve, "x"⟩))))).close.next.output.bytes = [] ++ sent ∧
      (sent = [] ∨ ∃ pieces : List (List UInt8),
        pieces.Sublist (linesOf (List.replicate 3 (Entry.element? (.info ⟨.execve, "x"⟩)))) ∧
        sent = Text.utf8 (headLines ⟨⟨"", ""⟩⟩) ++ pieces.flatten ++ Text.utf8 tailLines) := by
  have hok : (Run.final perform
      (start ⟨⟨"", ""⟩⟩ { rules := [.accept 5, .refuse], flushes := [some ⟨"busy", true⟩] })
      (List.map .write (List.replicate 3 (Entry.element? (.info ⟨.execve, "x"⟩))))).close.result =
      .ok () := by
    decide +kernel
  have hflushed : ∀ x ∈ Run.history perform
      (start ⟨⟨"", ""⟩⟩ { rules := [.accept 5, .refuse], flushes := [some ⟨"busy", true⟩] })
      (List.map .write (List.replicate 3 (Entry.element? (.info ⟨.execve, "x"⟩)))),
      lineSent x ≠ [] → x.after.output.flushed = x.before.output.flushed + 1 := by
    decide +kernel
  exact ⟨hok, hflushed, whole_lines_of_close _ _ _ hok hflushed⟩

/-- An output that fails in the middle of the first element. The second element is written behind
what has arrived of the first, and the document is closed with success; what has arrived is not
made of whole lines. -/
theorem torn_line_closed :
    (Run.final perform
      (start ⟨⟨"", ""⟩⟩ { rules := [.accept 30, .fail ⟨"disk full", false⟩] })
      (List.map .write (List.replicate 2 (Entry.element? (.info ⟨.execve, "x"⟩))))).close.result =
      .ok () ∧
    (Run.final perform
      (start ⟨⟨"", ""⟩⟩ { rules := [.accept 30, .fail ⟨"disk full", false⟩] })
      (List.map .write (List.replicate 2
        (Entry.element? (.info ⟨.execve, "x"⟩))))).close.next.output.bytes ≠ [] ∧
    ∀ pieces ∈ (linesOf (List.replicate 2 (Entry.element? (.info ⟨.execve, "x"⟩)))).sublists,
      (Run.final perform
        (start ⟨⟨"", ""⟩⟩ { rules := [.accept 30, .fail ⟨"disk full", false⟩] })
        (List.map .write (List.replicate 2
          (Entry.element? (.info ⟨.execve, "x"⟩))))).close.next.output.bytes ≠
        Text.utf8 (headLines ⟨⟨"", ""⟩⟩) ++ pieces.flatten ++ Text.utf8 tailLines := by
  decide +kernel

end Document

end DiagnosticReport
