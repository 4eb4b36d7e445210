import DiagnosticReport.Proofs.Markup.UniqueReading
import DiagnosticReport.Proofs.Transcript.Grammar

/-!
# Events can be written and read back

An event is shown as the line of a log that tells of it. If its text fits on a line and ends
visibly, the line can be read again, whatever the text looks like: a text may itself start with a
label, with the tag of a tool or with an origin in brackets. The reader takes off one tag at most,
and never the label of a line, since no line with a label has a tag in front of it
(`Transcript.Labelled.layout`).

* `Transcript.Line` : the lines that tell of an event, with or without the tag of a tool.
* `Transcript.events_intercalate` : a log of such lines is read as the events that were written.
* `Transcript.eventOfLine?_display` : what was read off a line can be shown and read again.
-/

namespace DiagnosticReport

namespace Transcript

/-! ### Lines that tell of an event -/

/-- A text that a line can end in. -/
structure FitsLine (text : String) : Prop where
  /-- It holds no line break. -/
  unbroken : '\n' ∉ text.toList
  /-- Its last character is not blank. -/
  visible : Text.EndsVisibly text.toList

/-- An event that is shown in full, in a log that goes by `source`. -/
structure Printable (source : String) (event : Event) : Prop where
  /-- The event has a label. -/
  severity : event.severity ≠ .message
  /-- Its text can stand on a line. -/
  text : FitsLine event.text
  /-- If it is to be reported once, then for the log. -/
  origin : event.origin = none ∨ event.severity = .warning ∧ event.origin = some (.named source)

/-- What a line without tag says of an event, in a log that goes by `source`. -/
inductive Body (source : String) : Event → String → Prop where
  /-- The event is shown. -/
  | shown {event : Event} (printable : Printable source event) : Body source event event.display
  /-- A warning to be reported once names its origin. -/
  | bracketed {origin text : String} (unbroken : '\n' ∉ origin.toList)
      (first : ¬ "]: ".toList <:+: origin.toList) (fits : FitsLine text) :
      Body source (.onceWarning (.named origin) text)
        ("WARNING ONCE [" ++ origin ++ "]: " ++ text)

/-- A line that tells of an event, in a log that goes by `source`. -/
inductive Line (source : String) : Event → String → Prop where
  /-- The line has no tag. -/
  | bare {event : Event} {body : String} (tells : Body source event body) :
      Line source event body
  /-- The body stands behind the tag of a tool. -/
  | tagged {event : Event} {tag body : String} (tool : ToolTag tag.toList)
      (tells : Body source event body) : Line source event (tag ++ ": " ++ body)

/-! ### Labels in front -/

/-- A body with a label opens with a word that is no tag in front of a colon. -/
theorem Labelled.exists_word {body : List Char} {form : Form} (h : Labelled body form) :
    ∃ word c rest, body = word ++ c :: rest ∧ word.all isTagChar = true ∧
      isTagChar c = false ∧ (c = ':' → ¬ ToolTag word) := by
  cases h with
  | @once text eq =>
    exact ⟨"WARNING".toList, ' ', "ONCE: ".toList ++ text, eq, by decide, by decide,
      fun h => absurd h (by decide)⟩
  | @onceFrom origin text eq first =>
    refine ⟨"WARNING".toList, ' ', "ONCE [".toList ++ origin ++ "]: ".toList ++ text, ?_,
      by decide, by decide, fun h => absurd h (by decide)⟩
    rw [eq]
    rfl
  | @note text eq =>
    exact ⟨"NOTE".toList, ':', ' ' :: text, eq, by decide, by decide,
      fun _ tool => tool.not_label.1 rfl⟩
  | @warning text eq =>
    exact ⟨"WARNING".toList, ':', ' ' :: text, eq, by decide, by decide,
      fun _ tool => tool.not_label.2.1 rfl⟩
  | @error text eq =>
    exact ⟨"ERROR".toList, ':', ' ' :: text, eq, by decide, by decide,
      fun _ tool => tool.not_label.2.2 rfl⟩

/-- **A label is not taken for a tag**, and neither is what stands behind it. -/
theorem Labelled.layout {body : List Char} {form : Form} (h : Labelled body form) :
    Layout body none body := by
  refine .bare ?_
  intro tag rest tool heq
  obtain ⟨word, c, rest', hbody, hword, hc, hlabel⟩ := h.exists_word
  have htag : ∀ a ∈ tag, isTagChar a = true := fun a ha => isTagChar_iff.2 (tool.chars a ha)
  have hline : tag ++ ':' :: (' ' :: rest) = word ++ c :: rest' := by
    rw [← hbody, heq, List.append_assoc]
    rfl
  -- the tag and the word end at the first character that is not one of tags
  obtain ⟨rfl, hrest⟩ := Markup.append_cons_inj (p := fun a => isTagChar a = true) htag
    (List.all_eq_true.1 hword) (by decide) (by rw [hc]; decide) hline
  exact hlabel (List.cons.inj hrest).1.symm tool

theorem eventOfChars?_of_labelled {line body : List Char} {found : Option (List Char)}
    {form : Form} (hlayout : Layout line found body) (h : Labelled body form)
    (hvisible : Text.EndsVisibly form.text) (fallback : Origin) :
    eventOfChars? fallback line = some (form.event fallback) := by
  obtain ⟨front, hfront⟩ := h.exists_eq_append
  have hbody : Text.EndsVisibly body := by
    rw [hfront, List.append_cons]
    exact hvisible.append _
  have hline : Text.EndsVisibly line := by
    cases hlayout with
    | tagged tool eq =>
      rw [eq]
      exact hbody.append _
    | bare => exact hbody
  have htrim := hline.trimEnd_eq
  refine eventOfChars?_eq_some ?_ (htrim.symm ▸ hlayout) (.labelled h)
  rw [htrim]
  exact hline.ne_nil

/-! ### Events that are shown -/

/-- **How an event is shown** tells of it, if its own origin, where it has one, is what warnings
that name none are given. -/
theorem labelled_display {event : Event} (hseverity : event.severity ≠ .message)
    (honce : event.origin = none ∨ event.severity = .warning) {fallback : Origin}
    (hfallback : ∀ origin, event.origin = some origin → fallback = origin) :
    ∃ form, Labelled event.display.toList form ∧ form.event fallback = event := by
  obtain ⟨severity, text, origin⟩ := event
  cases origin with
  | some origin =>
    obtain rfl : severity = .warning := honce.resolve_left (by simp)
    obtain rfl : fallback = origin := hfallback origin rfl
    refine ⟨.once text.toList, .once ?_, by simp [Form.event, Event.onceWarning]⟩
    simp [Event.display, Event.label?, Event.isOnceOnly, Event.onceLabel]
  | none =>
    cases severity with
    | message => exact absurd rfl hseverity
    | note =>
      refine ⟨.plain .note text.toList, .note ?_, by simp [Form.event]⟩
      simp [Event.display, Event.label?, Event.isOnceOnly, Severity.label?]
    | warning =>
      refine ⟨.plain .warning text.toList, .warning ?_, by simp [Form.event]⟩
      simp [Event.display, Event.label?, Event.isOnceOnly, Severity.label?]
    | error =>
      refine ⟨.plain .error text.toList, .error ?_, by simp [Form.event]⟩
      simp [Event.display, Event.label?, Event.isOnceOnly, Severity.label?]

theorem notMem_display {event : Event} (h : '\n' ∉ event.text.toList) :
    '\n' ∉ event.display.toList := by
  have hlabel : ∀ label, event.label? = some label → '\n' ∉ label.toList := by
    intro label hlabel
    rw [Event.label?] at hlabel
    split at hlabel
    · obtain rfl := Option.some.inj hlabel
      decide
    · cases hseverity : event.severity <;> rw [hseverity] at hlabel <;> cases hlabel <;> decide
  unfold Event.display
  split
  · next label hsome => simp [hlabel label hsome, h]
  · exact h

/-- **What was read can be shown and read again**: it is the same event, if warnings that name no
origin are given its own. -/
theorem eventOfLine?_display {line : String} {fallback : Origin} {event : Event}
    (h : eventOfLine? line fallback = some event) (hseverity : event.severity ≠ .message)
    {own : Origin} (hown : ∀ origin, event.origin = some origin → own = origin) :
    eventOfLine? event.display own = some event := by
  obtain ⟨-, body, form, -, hreads, hvisible, rfl⟩ := exists_form_of_eventOfChars? h
  have honce : (form.event fallback).origin = none ∨
      (form.event fallback).severity = .warning := by
    cases form with
    | once text => exact .inr rfl
    | onceFrom origin text => exact .inr rfl
    | plain severity text => exact .inl rfl
  obtain ⟨shown, hshown, hevent⟩ := labelled_display hseverity honce hown
  have htext : shown.text = form.text := by
    rw [← shown.toList_text_event own, hevent, form.toList_text_event]
  rw [← htext] at hvisible
  rw [eventOfLine?, eventOfChars?_of_labelled hshown.layout hshown hvisible, hevent]

/-! ### Logs -/

variable {source : String} {event : Event} {line : String}

theorem Body.exists_labelled (h : Body source event line) :
    '\n' ∉ line.toList ∧ ∃ form, Labelled line.toList form ∧ Text.EndsVisibly form.text ∧
      form.event (.named source) = event := by
  cases h with
  | shown printable =>
    have honce : event.origin = none ∨ event.severity = .warning :=
      printable.origin.imp_right And.left
    have hsource : ∀ origin, event.origin = some origin → Origin.named source = origin := by
      intro origin horigin
      rcases printable.origin with hnone | ⟨-, hsome⟩
      · rw [hnone] at horigin
        cases horigin
      · exact Option.some.inj (hsome.symm.trans horigin)
    obtain ⟨form, hform, hevent⟩ := labelled_display printable.severity honce hsource
    refine ⟨notMem_display printable.text.unbroken, form, hform, ?_, hevent⟩
    rw [← form.toList_text_event (.named source), hevent]
    exact printable.text.visible
  | @bracketed origin text unbroken first fits =>
    refine ⟨?_, .onceFrom origin.toList text.toList, .onceFrom ?_ first, fits.visible, ?_⟩
    · have hbreak := fits.unbroken
      simp [unbroken, hbreak]
    · simp
    · simp [Form.event]

theorem Line.eventOfChars? (h : Line source event line) :
    '\n' ∉ line.toList ∧ eventOfChars? (.named source) line.toList = some event := by
  cases h with
  | bare tells =>
    obtain ⟨hbreak, form, hform, hvisible, rfl⟩ := tells.exists_labelled
    exact ⟨hbreak, eventOfChars?_of_labelled hform.layout hform hvisible _⟩
  | @tagged tag body tool tells =>
    obtain ⟨hbreak, form, hform, hvisible, rfl⟩ := tells.exists_labelled
    have htag : '\n' ∉ tag.toList := by
      intro hmem
      exact absurd (isTagChar_iff.2 (tool.chars _ hmem)) (by decide)
    have hlayout : Layout (tag ++ ": " ++ body).toList (some tag.toList) body.toList :=
      .tagged tool (by simp)
    refine ⟨?_, eventOfChars?_of_labelled hlayout hform hvisible _⟩
    simp [htag, hbreak]

/-- **A log that was written is read as the events that it was written for.** -/
theorem events_intercalate {events : List Event} {lines : List String}
    (h : List.Forall₂ (Line source) events lines) :
    Transcript.events ("\n".intercalate lines) source = events := by
  have hread : (lines.map String.toList).filterMap (eventOfChars? (.named source)) = events := by
    induction h with
    | nil => rfl
    | cons hline _ ih => simp [hline.eventOfChars?.2, ih]
  have hbreaks : ∀ cs ∈ lines.map String.toList, '\n' ∉ cs := by
    clear hread
    induction h with
    | nil => simp
    | cons hline _ ih =>
      rw [List.map_cons, List.forall_mem_cons]
      exact ⟨hline.eventOfChars?.1, ih⟩
  rw [Transcript.events, String.toList_intercalate]
  by_cases hnil : lines.map String.toList = []
  · -- the empty text is one blank line
    rw [hnil] at hread ⊢
    rw [← hread]
    rfl
  · have hsplit : ("\n".toList.intercalate (lines.map String.toList)).splitOn '\n' =
        lines.map String.toList := List.splitOn_intercalate '\n' hbreaks hnil
    rw [hsplit, hread]

/-- **Writing and reading are inverse.** In a log that goes by `source`:

* if the lines tell of the events, whatever the texts look like and whichever tags stand in front,
  the log is read as these events, in order;
* if an event that is no plain message was read off a line, then what is shown of it is read as the
  same event, if warnings that name no origin are given its own. -/
theorem read_back (source : String) :
    (∀ events lines, List.Forall₂ (Line source) events lines →
      Transcript.events ("\n".intercalate lines) source = events) ∧
    ∀ line fallback event, eventOfLine? line fallback = some event → event.severity ≠ .message →
      ∀ own, (∀ origin, event.origin = some origin → own = origin) →
        eventOfLine? event.display own = some event := by
  refine ⟨fun events lines h => events_intercalate h, ?_⟩
  intro line fallback event h hseverity own hown
  exact eventOfLine?_display h hseverity hown

/-- Texts that start with a label or a tag, and an origin that holds a colon and ends in a bracket;
the warning that named its origin is then shown without it. -/
theorem read_back_lookalikes :
    Transcript.events ("\n".intercalate ["KLEE: WARNING ONCE: NOTE: x",
        "WARNING ONCE [a: b]]: ERROR: y", "NOTE: KLEE: WARNING: z"]) "run.log" =
      [.onceWarning (.named "run.log") "NOTE: x", .onceWarning (.named "a: b]") "ERROR: y",
        { severity := .note, text := "KLEE: WARNING: z" }] ∧
    (Event.onceWarning (.named "a: b]") "ERROR: y").display = "WARNING ONCE: ERROR: y" ∧
    eventOfLine? (Event.onceWarning (.named "a: b]") "ERROR: y").display (.named "a: b]") =
      some (.onceWarning (.named "a: b]") "ERROR: y") := by
  have hfits : ∀ text ∈ ["NOTE: x", "ERROR: y", "KLEE: WARNING: z"], FitsLine text := by
    intro text htext
    simp only [List.mem_cons, List.not_mem_nil, or_false] at htext
    rcases htext with rfl | rfl | rfl <;> exact ⟨by decide, _, rfl, by decide⟩
  have htool : ToolTag "KLEE".toList := isTag_iff.1 (by decide)
  have honce : Line "run.log" (.onceWarning (.named "run.log") "NOTE: x")
      "KLEE: WARNING ONCE: NOTE: x" :=
    .tagged htool (.shown ⟨by decide, hfits _ (by decide), .inr ⟨rfl, rfl⟩⟩)
  have hnamed : Line "run.log" (.onceWarning (.named "a: b]") "ERROR: y")
      "WARNING ONCE [a: b]]: ERROR: y" :=
    .bare (.bracketed (by decide) (by decide) (hfits _ (by decide)))
  have hnote : Line "run.log" { severity := .note, text := "KLEE: WARNING: z" }
      "NOTE: KLEE: WARNING: z" :=
    .bare (.shown ⟨by decide, hfits _ (by decide), .inl rfl⟩)
  obtain ⟨hlog, hshown⟩ := read_back "run.log"
  refine ⟨hlog _ _ (.cons honce (.cons hnamed (.cons hnote .nil))), rfl, ?_⟩
  refine hshown "WARNING ONCE [a: b]]: ERROR: y" (.named "run.log") _ ?_ (by decide) _ ?_
  · decide +kernel
  · rintro origin ⟨⟩
    rfl

end Transcript

end DiagnosticReport
