import DiagnosticReport.Proofs.Stream.Calls

/-!
# The content of a document

What a document has sent is determined by the elements that were written to it: nothing, if there
were none, or else the head and their lines. An output may fail while it takes the head. As long as
this is all that happens, the bytes that it has are a front part of the head and no more, and the
next write continues them: a failure in the head leaves no trace. `Document.HasSent` says which
elements a document has sent in this way, whatever its output does, and everything is proved of it
first:

* `Document.HasSent.write_of_ok` : a write that succeeds adds its element.
* `Document.HasSent.write_of_fault` : a write that fails in the head adds nothing.
* `Document.HasSent.close_of_ok` : a document that was closed is the report with its elements.

`Document.Intact` is the same for entries, of which those that show nothing leave no trace. On a
reliable output nothing fails (`Document.Carries`): to write an entry adds it
(`Document.Carries.write`), and the document when it is closed is the report with these entries
(`Document.Carries.close`) or with whatever elements were written (`Document.close_ofElements`).
-/

namespace DiagnosticReport

open Markup

/-- The elements of the entries that show anything. -/
def Results.shown (entries : Results) : List Element :=
  entries.filterMap Entry.element?

theorem Results.shown_append (entries : Results) (entry : Entry) :
    Results.shown (entries ++ [entry]) = Results.shown entries ++ entry.element?.toList := by
  rw [Results.shown, List.filterMap_append]
  cases h : entry.element? <;> simp [Results.shown, h]

theorem Results.shown_eq_nil_iff {entries : Results} :
    Results.shown entries = [] ↔ ∀ entry ∈ entries, entry.markup = "" := by
  rw [Results.shown, List.filterMap_eq_nil_iff]
  refine forall₂_congr fun entry _ => ?_
  rw [Entry.markup]
  cases entry.element? <;> simp [Element.render_ne_empty]

namespace Document

/-! ### Elements -/

/-- An open document on an output that held some bytes before, that has sent these elements and
nothing else; as long as there are none, some part of the head may be missing. -/
structure HasSent (metadata : Metadata) (held : List UInt8) (es : List Element)
    (doc : Document) : Prop where
  /-- The document has not been closed. -/
  opened : doc.closed = false
  /-- Its head is that of the report. -/
  head_eq : doc.head = Text.utf8 (headLines metadata)
  /-- Without elements, a part of the head has been sent; otherwise the head and their lines have
  been. -/
  sent : (es = [] ∧ doc.headAccepted < doc.head.length ∧
      doc.output.bytes = held ++ doc.head.take doc.headAccepted) ∨
    (es ≠ [] ∧ doc.headAccepted = doc.head.length ∧
      doc.output.bytes = held ++ Text.utf8 (headLines metadata ++ Element.lines es))

theorem HasSent.start (metadata : Metadata) (out : Output) :
    (start metadata out).HasSent metadata out.bytes [] := by
  have hhead : (Document.start metadata out).head = Text.utf8 (headLines metadata) :=
    congrArg Text.utf8 (headText_eq_headLines metadata)
  have hpos : 0 < (Document.start metadata out).head.length := by
    rw [hhead]
    exact length_utf8_headLines_pos metadata
  exact ⟨rfl, hhead, .inl ⟨rfl, hpos, by simp [Document.start]⟩⟩

variable {metadata : Metadata} {held : List UInt8} {entries : Results} {doc : Document}
  {es : List Element}

theorem HasSent.headAccepted_le (h : doc.HasSent metadata held es) :
    doc.headAccepted ≤ doc.head.length := by
  rcases h.sent with ⟨-, hlt, -⟩ | ⟨-, hall, -⟩ <;> omega

theorem HasSent.bytes_headRest (h : doc.HasSent metadata held es) :
    doc.output.bytes ++ doc.headRest =
      held ++ Text.utf8 (headLines metadata ++ Element.lines es) := by
  rcases h.sent with ⟨hnone, -, hbytes⟩ | ⟨-, hall, hbytes⟩
  · rw [headRest, hbytes, hnone, List.append_assoc, List.take_append_drop, h.head_eq,
      Element.lines_nil, String.append_empty]
  · rw [headRest, hall, List.drop_length, List.append_nil, hbytes]

theorem Delivery.of_ok {doc' : Document} {whole : List UInt8}
    (h : doc.Delivery whole (.ok ()) doc') :
    ∃ out', doc' = { doc with headAccepted := doc.head.length, output := out' } ∧
      out'.bytes = doc.output.bytes ++ doc.headRest ++ whole := by
  cases h with
  | behindHead bytes flushed delivery =>
    cases delivery with
    | whole bytes' flushed' => exact ⟨_, rfl, by rw [bytes', bytes]⟩

theorem Delivery.of_headAccepted_lt {doc' : Document} {whole : List UInt8}
    {result : Except Fault Unit} (h : doc.Delivery whole result doc')
    (hlt : doc'.headAccepted < doc.head.length) :
    ∃ n out', doc' = { doc with headAccepted := doc.headAccepted + n, output := out' } ∧
      out'.bytes = doc.output.bytes ++ doc.headRest.take n := by
  cases h with
  | inHead lt bytes flushed => exact ⟨_, _, rfl, bytes⟩
  | behindHead => exact absurd hlt (Nat.lt_irrefl _)

theorem eq_none_of_markup_eq_empty {element? : Option Element} (h : markup element? = "") :
    element? = none := by
  cases element? with
  | none => rfl
  | some e => exact absurd h e.render_ne_empty

/-- **A write that succeeds** sends its element. If no part of the head had been sent without an
element, or if there was an element to send, no part of it has been sent without one now. -/
theorem HasSent.write_of_ok (h : doc.HasSent metadata held es) {element? : Option Element}
    (hok : (doc.write element?).1 = .ok ()) :
    (doc.write element?).2.HasSent metadata held (es ++ element?.toList) ∧
      ((es = [] → doc.headAccepted = 0) ∨ markup element? ≠ "" →
        es ++ element?.toList = [] → (doc.write element?).2.headAccepted = 0) := by
  rcases doc.write_cases element? with ⟨hclosed, -⟩ | ⟨-, hblank, heq⟩ |
    ⟨-, hshows, result, doc', written, hdeliver, heq⟩
  · rw [h.opened] at hclosed
    cases hclosed
  · -- an element that shows nothing
    obtain rfl := eq_none_of_markup_eq_empty hblank
    rw [heq, Option.toList_none, List.append_nil]
    exact ⟨h, fun hsettled => hsettled.resolve_right fun hshows => hshows hblank⟩
  · have hresult : result = .ok () := by
      rw [heq] at hok
      cases result with
      | ok done => rfl
      | error fault => cases hok
    have hdelivery := deliver_spec h.headAccepted_le [markup element?, lineSeparator]
    rw [hdeliver, hresult] at hdelivery
    obtain ⟨out', rfl, hbytes⟩ := hdelivery.of_ok
    obtain ⟨e, rfl⟩ : ∃ e, element? = some e := by
      cases element? with
      | none => exact absurd rfl hshows
      | some e => exact ⟨e, rfl⟩
    have hne : es ++ (some e).toList ≠ [] := by simp
    have hsent : out'.bytes = held ++ Text.utf8 (headLines metadata ++
        Element.lines (es ++ (some e).toList)) := by
      rw [hbytes, h.bytes_headRest]
      simp [Element.line]
    rw [heq]
    exact ⟨⟨h.opened, h.head_eq, .inr ⟨hne, rfl, hsent⟩⟩, fun _ hnone => absurd hnone hne⟩

/-- **A write that fails in the head** sends no element, and it had one to send. -/
theorem HasSent.write_of_fault (h : doc.HasSent metadata held es) {element? : Option Element}
    {error : ReportError} (herror : (doc.write element?).1 = .error error)
    (hlt : (doc.write element?).2.headAccepted < doc.head.length) :
    (doc.write element?).2.HasSent metadata held es ∧ markup element? ≠ "" := by
  rcases doc.write_cases element? with ⟨hclosed, -⟩ | ⟨-, -, heq⟩ |
    ⟨-, hshows, result, doc', written, hdeliver, heq⟩
  · rw [h.opened] at hclosed
    cases hclosed
  · rw [heq] at herror
    cases herror
  · have hdelivery := deliver_spec h.headAccepted_le [markup element?, lineSeparator]
    rw [hdeliver] at hdelivery
    rw [heq] at hlt ⊢
    obtain ⟨n, out', rfl, hbytes⟩ := hdelivery.of_headAccepted_lt hlt
    refine ⟨⟨h.opened, h.head_eq, ?_⟩, hshows⟩
    -- a head that is not complete now was not complete before
    rcases h.sent with ⟨hnone, -, hsent⟩ | ⟨-, hall, -⟩
    · refine .inl ⟨hnone, hlt, ?_⟩
      show out'.bytes = held ++ doc.head.take (doc.headAccepted + n)
      rw [hbytes, hsent, List.append_assoc, headRest, List.take_add]
    · have hlt' : doc.headAccepted + n < doc.head.length := hlt
      omega

/-- **A document that was closed** holds the head, the lines of its elements and the tail, or
nothing if there are no elements. -/
theorem HasSent.close_of_ok (h : doc.HasSent metadata held es)
    (hsettled : es = [] → doc.headAccepted = 0) (hok : doc.close.result = .ok ()) :
    doc.close.next.output.bytes =
      held ++ if es = [] then []
        else Text.utf8 (headLines metadata ++ Element.lines es ++ tailLines) := by
  rcases doc.close_cases with ⟨hclosed, -⟩ | ⟨-, hzero, -, hnext⟩ |
    ⟨-, hnonzero, result, doc', hdeliver, hresult, hnext⟩
  · rw [h.opened] at hclosed
    cases hclosed
  · -- only a flush: the head is untouched, so nothing has been shown
    have hpos := length_utf8_headLines_pos metadata
    rw [← h.head_eq] at hpos
    have hbytes := doc.output.bytes_flush
    rw [hnext]
    rcases h.sent with ⟨hnone, -, hsent⟩ | ⟨-, hall, -⟩
    · rw [hzero, List.take_zero, List.append_nil] at hsent
      rw [if_pos hnone, List.append_nil, ← hsent]
      exact hbytes
    · omega
  · -- the tail is delivered, behind a head that was completed by the first element
    have hsome : es ≠ [] := fun hnone => hnonzero (hsettled hnone)
    have hdelivery := @deliver_spec { doc with closed := true } h.headAccepted_le tailTexts
    have hdone : result = .ok () := by
      rw [hok] at hresult
      cases result with
      | ok done => rfl
      | error fault => cases hresult
    rw [hdeliver, hdone, flatMap_tailTexts] at hdelivery
    obtain ⟨out', rfl, hbytes⟩ := hdelivery.of_ok
    have hrest : doc.output.bytes ++ { doc with closed := true }.headRest =
        held ++ Text.utf8 (headLines metadata ++ Element.lines es) :=
      h.bytes_headRest
    rw [hnext, if_neg hsome, Text.utf8_append, ← List.append_assoc, ← hrest]
    exact hbytes

/-! ### Entries -/

/-- An open document on an output that held some bytes before, to which these entries were written
and nothing else; as long as none of them shows anything, some part of the head may be missing. -/
structure Intact (metadata : Metadata) (held : List UInt8) (entries : Results)
    (doc : Document) : Prop where
  /-- The document has not been closed. -/
  opened : doc.closed = false
  /-- Its head is that of the report. -/
  head_eq : doc.head = Text.utf8 (headLines metadata)
  /-- Without entries that show anything, a part of the head has been sent; otherwise the head and
  their lines have been. -/
  sent : (Results.shown entries = [] ∧ doc.headAccepted < doc.head.length ∧
      doc.output.bytes = held ++ doc.head.take doc.headAccepted) ∨
    (Results.shown entries ≠ [] ∧ doc.headAccepted = doc.head.length ∧ doc.output.bytes =
      held ++ Text.utf8 (headLines metadata ++ Element.lines (Results.shown entries)))

/-- No part of the head has been sent without an entry that shows anything. -/
def Settled (entries : Results) (doc : Document) : Prop :=
  Results.shown entries = [] → doc.headAccepted = 0

theorem intact_iff_hasSent :
    doc.Intact metadata held entries ↔ doc.HasSent metadata held (Results.shown entries) :=
  ⟨fun h => ⟨h.opened, h.head_eq, h.sent⟩, fun h => ⟨h.opened, h.head_eq, h.sent⟩⟩

theorem Intact.start (metadata : Metadata) (out : Output) :
    (start metadata out).Intact metadata out.bytes [] :=
  intact_iff_hasSent.2 (HasSent.start metadata out)

theorem Intact.headAccepted_le (h : doc.Intact metadata held entries) :
    doc.headAccepted ≤ doc.head.length :=
  (intact_iff_hasSent.1 h).headAccepted_le

/-- **A write that succeeds** adds its entry, and if the entry shows anything, or no part of the
head was missing before, none is missing now. -/
theorem Intact.write_of_ok (h : doc.Intact metadata held entries) {entry : Entry}
    (hok : (doc.write entry.element?).1 = .ok ()) :
    (doc.write entry.element?).2.Intact metadata held (entries ++ [entry]) ∧
      (doc.Settled entries ∨ entry.markup ≠ "" →
        (doc.write entry.element?).2.Settled (entries ++ [entry])) := by
  rw [intact_iff_hasSent, Settled, Settled, Results.shown_append]
  exact (intact_iff_hasSent.1 h).write_of_ok hok

/-- **A write that fails in the head** adds nothing, and its entry shows something. -/
theorem Intact.write_of_fault (h : doc.Intact metadata held entries) {entry : Entry}
    {error : ReportError} (herror : (doc.write entry.element?).1 = .error error)
    (hlt : (doc.write entry.element?).2.headAccepted < doc.head.length) :
    (doc.write entry.element?).2.Intact metadata held entries ∧ entry.markup ≠ "" := by
  rw [intact_iff_hasSent]
  exact (intact_iff_hasSent.1 h).write_of_fault herror hlt

/-- **A document that was closed** is the report with its entries. -/
theorem Intact.close_of_ok (h : doc.Intact metadata held entries) (hsettled : doc.Settled entries)
    (hok : doc.close.result = .ok ()) :
    doc.close.next.output.bytes =
      held ++ if Results.shown entries = [] then []
        else Text.utf8 ({ metadata, results := entries : Analysis }.markup ++ "\n") := by
  have hreport : headLines metadata ++ Element.lines (Results.shown entries) ++ tailLines =
      { metadata, results := entries : Analysis }.markup ++ "\n" :=
    (Analysis.line_element { metadata, results := entries }).symm
  rw [← hreport]
  exact (intact_iff_hasSent.1 h).close_of_ok hsettled hok

/-! ### Reliable outputs -/

/-- An open document on a reliable output that held some bytes before, to which these entries were
written. -/
structure Carries (metadata : Metadata) (held : List UInt8) (entries : Results)
    (doc : Document) : Prop where
  /-- The document has not been closed. -/
  opened : doc.closed = false
  /-- Its output is reliable. -/
  reliable : doc.output.Reliable
  /-- Its head is that of the report. -/
  head_eq : doc.head = Text.utf8 (headLines metadata)
  /-- Without entries that show anything, nothing has been sent; otherwise the head and their
  lines have been. -/
  sent : (Results.shown entries = [] ∧ doc.headAccepted = 0 ∧ doc.output.bytes = held) ∨
    (Results.shown entries ≠ [] ∧ doc.headAccepted = doc.head.length ∧ doc.output.bytes =
      held ++ Text.utf8 (headLines metadata ++ Element.lines (Results.shown entries)))

theorem Carries.intact (h : doc.Carries metadata held entries) :
    doc.Intact metadata held entries ∧ doc.Settled entries := by
  have hpos := length_utf8_headLines_pos metadata
  rw [← h.head_eq] at hpos
  rcases h.sent with ⟨hnone, hzero, hbytes⟩ | ⟨hsome, hall, hbytes⟩
  · refine ⟨⟨h.opened, h.head_eq, .inl ⟨hnone, by omega, ?_⟩⟩, fun _ => hzero⟩
    rw [hzero, List.take_zero, List.append_nil, hbytes]
  · exact ⟨⟨h.opened, h.head_eq, .inr ⟨hsome, hall, hbytes⟩⟩, fun hnone => absurd hnone hsome⟩

theorem Intact.carries (h : doc.Intact metadata held entries) (hsettled : doc.Settled entries)
    (hreliable : doc.output.Reliable) : doc.Carries metadata held entries := by
  refine ⟨h.opened, hreliable, h.head_eq, ?_⟩
  rcases h.sent with ⟨hnone, -, hbytes⟩ | hsent
  · have hzero := hsettled hnone
    rw [hzero, List.take_zero, List.append_nil] at hbytes
    exact .inl ⟨hnone, hzero, hbytes⟩
  · exact .inr hsent

theorem write_of_reliable (hopened : doc.closed = false) (hle : doc.headAccepted ≤ doc.head.length)
    (hreliable : doc.output.Reliable) (element? : Option Element) :
    (doc.write element?).1 = .ok () ∧ (doc.write element?).2.output.Reliable := by
  rcases doc.write_cases element? with ⟨hclosed, -⟩ | ⟨-, -, heq⟩ |
    ⟨-, -, result, doc', written, hdeliver, heq⟩
  · rw [hopened] at hclosed
    cases hclosed
  · rw [heq]
    exact ⟨rfl, hreliable⟩
  · obtain ⟨out', hok, hreliable', -⟩ :=
      deliver_of_reliable hle hreliable [markup element?, lineSeparator]
    obtain ⟨rfl, rfl⟩ := Prod.mk.inj (hdeliver.symm.trans hok)
    rw [heq]
    exact ⟨rfl, hreliable'⟩

theorem close_of_reliable (hle : doc.headAccepted ≤ doc.head.length)
    (hreliable : doc.output.Reliable) : doc.close.result = .ok () := by
  rcases doc.close_cases with ⟨-, hresult, -⟩ | ⟨-, -, hresult, -⟩ |
    ⟨-, -, result, doc', hdeliver, hresult, -⟩
  · exact hresult
  · obtain ⟨out', hflush, -⟩ := hreliable.flush
    rw [hresult, hflush]
    rfl
  · obtain ⟨out', hok, -⟩ :=
      @deliver_of_reliable { doc with closed := true } hle hreliable tailTexts
    obtain ⟨rfl, rfl⟩ := Prod.mk.inj (hdeliver.symm.trans hok)
    exact hresult

/-- The document on an output to which elements were written one after the other, some of which may
be missing. -/
def ofElements (metadata : Metadata) (out : Output) (elements : List (Option Element)) : Document :=
  Run.final perform (Document.start metadata out) (elements.map .write)

theorem HasSent.final_write (h : doc.HasSent metadata held es)
    (hsettled : es = [] → doc.headAccepted = 0) (hreliable : doc.output.Reliable)
    (more : List (Option Element)) :
    (Run.final perform doc (more.map .write)).HasSent metadata held (es ++ more.filterMap id) ∧
      (es ++ more.filterMap id = [] →
        (Run.final perform doc (more.map .write)).headAccepted = 0) ∧
      (Run.final perform doc (more.map .write)).output.Reliable := by
  induction more generalizing doc es with
  | nil => simpa using ⟨h, hsettled, hreliable⟩
  | cons element? more ih =>
    obtain ⟨hok, hreliable'⟩ := write_of_reliable h.opened h.headAccepted_le hreliable element?
    obtain ⟨hsent, hsettled'⟩ := h.write_of_ok hok
    have hrest := ih hsent (hsettled' (.inl hsettled)) hreliable'
    have hcons : (element? :: more).filterMap id = element?.toList ++ more.filterMap id := by
      cases element? <;> rfl
    rwa [List.append_assoc, ← hcons] at hrest

/-- **The document of some elements when it is closed** is the report that holds them, if there are
any, and otherwise nothing. -/
theorem close_ofElements (metadata : Metadata) {out : Output} (h : out.Reliable)
    (elements : List (Option Element)) :
    (ofElements metadata out elements).close.result = .ok () ∧
      (ofElements metadata out elements).close.next.output.bytes =
        out.bytes ++ if elements.filterMap id = [] then []
          else Text.utf8 (Element.group .analysis []
            (metadata.element?.toList ++ [.group .results [] (elements.filterMap id)])).line := by
  obtain ⟨hsent, hsettled, hreliable⟩ :=
    (HasSent.start metadata out).final_write (fun _ => rfl) h elements
  have hok := close_of_reliable hsent.headAccepted_le hreliable
  rw [← headLines_append_tailLines]
  exact ⟨hok, hsent.close_of_ok hsettled hok⟩

theorem Carries.start (metadata : Metadata) {out : Output} (h : out.Reliable) :
    (start metadata out).Carries metadata out.bytes [] :=
  (Intact.start metadata out).carries (fun _ => rfl) h

/-- **To write an entry adds it to the content.** -/
theorem Carries.write (h : doc.Carries metadata held entries) (entry : Entry) :
    ∃ doc', doc.write entry.element? = (.ok (), doc') ∧
      doc'.Carries metadata held (entries ++ [entry]) := by
  obtain ⟨hintact, hsettled⟩ := h.intact
  obtain ⟨hok, hreliable⟩ :=
    write_of_reliable h.opened hintact.headAccepted_le h.reliable entry.element?
  obtain ⟨hintact', hsettled'⟩ := hintact.write_of_ok hok
  exact ⟨_, Prod.ext hok rfl, hintact'.carries (hsettled' (.inl hsettled)) hreliable⟩

/-- The document on an output to which entries were written one after the other. -/
def ofEntries (metadata : Metadata) (out : Output) (entries : Results) : Document :=
  Run.final perform (Document.start metadata out) (entries.map fun entry => .write entry.element?)

theorem Carries.final_write (h : doc.Carries metadata held entries) (more : Results) :
    (Run.final perform doc (more.map fun entry => .write entry.element?)).Carries metadata held
      (entries ++ more) := by
  obtain ⟨hintact, hsettled⟩ := h.intact
  have hfinal := (intact_iff_hasSent.1 hintact).final_write hsettled h.reliable
    (more.map Entry.element?)
  have hshown : Results.shown entries ++ (more.map Entry.element?).filterMap id =
      Results.shown (entries ++ more) := by
    rw [List.filterMap_map, Results.shown, Results.shown, List.filterMap_append]
    rfl
  rw [List.map_map, hshown] at hfinal
  obtain ⟨hsent, hsettled', hreliable⟩ := hfinal
  exact (intact_iff_hasSent.2 hsent).carries hsettled' hreliable

theorem Carries.ofEntries (metadata : Metadata) {out : Output} (h : out.Reliable)
    (entries : Results) : (ofEntries metadata out entries).Carries metadata out.bytes entries :=
  (Carries.start metadata h).final_write entries

/-- **The document when it is closed.** -/
theorem Carries.close (h : doc.Carries metadata held entries) :
    doc.close.result = .ok () ∧ doc.close.next.output.bytes =
      held ++ if Results.shown entries = [] then []
        else Text.utf8 ({ metadata, results := entries : Analysis }.markup ++ "\n") := by
  obtain ⟨hintact, hsettled⟩ := h.intact
  have hok := close_of_reliable hintact.headAccepted_le h.reliable
  exact ⟨hok, hintact.close_of_ok hsettled hok⟩

end Document

end DiagnosticReport
