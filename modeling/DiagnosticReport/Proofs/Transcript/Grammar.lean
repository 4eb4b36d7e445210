import DiagnosticReport.Diagnostic.Transcript
import DiagnosticReport.Proofs.Text.Cutting

/-!
# The grammar of log lines

A line of a recorded log, without the blanks at its end, is a body, possibly behind the tag of a
tool (`Transcript.Layout`). The body opens with one of five labels, or else it is a plain message
(`Transcript.Reads`). The reader of lines tries these shapes in a fixed order, but the order does
not matter: the shapes exclude each other.

* `Transcript.layout_iff` : a line is laid out in exactly one way, the one that the reader finds.
* `Transcript.eventOfBody_of_reads` : the event of a body is the one that its shape stands for.
* `Transcript.line_grammar` : **the reader accepts exactly the grammar.**
-/

namespace DiagnosticReport

namespace Transcript

/-! ### The grammar -/

/-- The tag of a tool: a word over capitals, digits, `_` and `-` that is no label. -/
structure ToolTag (tag : List Char) : Prop where
  /-- A tag is not empty. -/
  ne_nil : tag ≠ []
  /-- The characters that a tag is made of. -/
  chars : ∀ c ∈ tag, ('A' ≤ c ∧ c ≤ 'Z') ∨ ('0' ≤ c ∧ c ≤ '9') ∨ c = '_' ∨ c = '-'
  /-- A label is no tag. -/
  not_label : tag ≠ "NOTE".toList ∧ tag ≠ "WARNING".toList ∧ tag ≠ "ERROR".toList

/-- How a line is made up: the tag of a tool, if it starts with one, and the body. -/
inductive Layout (line : List Char) : Option (List Char) → List Char → Prop where
  /-- The body stands behind the tag of a tool. -/
  | tagged {tag body : List Char} (tool : ToolTag tag) (eq : line = tag ++ ": ".toList ++ body) :
      Layout line (some tag) body
  /-- Without a tag, the line is the body. -/
  | bare (untagged : ∀ tag rest, ToolTag tag → line ≠ tag ++ ": ".toList ++ rest) :
      Layout line none line

/-- What a body can tell of. -/
inductive Form where
  /-- A warning to be reported once that names no origin. -/
  | once (text : List Char)
  /-- A warning to be reported once for the origin that it names. -/
  | onceFrom (origin text : List Char)
  /-- An event that may be reported any number of times. -/
  | plain (severity : Severity) (text : List Char)

/-- The event that a form stands for, if warnings that name no origin have the origin
`fallback`. -/
def Form.event (fallback : Origin) : Form → Event
  | .once text => .onceWarning fallback (String.ofList text)
  | .onceFrom origin text => .onceWarning (.named (String.ofList origin)) (String.ofList text)
  | .plain severity text => { severity, text := String.ofList text }

/-- The forms that are told by a label, with the spelling of each. -/
inductive Labelled (body : List Char) : Form → Prop where
  | once {text : List Char} (eq : body = "WARNING ONCE: ".toList ++ text) :
      Labelled body (.once text)
  | onceFrom {origin text : List Char}
      (eq : body = "WARNING ONCE [".toList ++ origin ++ "]: ".toList ++ text)
      (first : ¬ "]: ".toList <:+: origin) : Labelled body (.onceFrom origin text)
  | note {text : List Char} (eq : body = "NOTE: ".toList ++ text) :
      Labelled body (.plain .note text)
  | warning {text : List Char} (eq : body = "WARNING: ".toList ++ text) :
      Labelled body (.plain .warning text)
  | error {text : List Char} (eq : body = "ERROR: ".toList ++ text) :
      Labelled body (.plain .error text)

/-- How a body reads: as its label tells, or as a plain message, if it has no label. -/
inductive Reads (body : List Char) : Form → Prop where
  | labelled {form : Form} (labelled : Labelled body form) : Reads body form
  | message (unlabelled : ∀ form, ¬ Labelled body form) : Reads body (.plain .message body)

/-! ### Tags -/

theorem isTagChar_iff {c : Char} : isTagChar c = true ↔
    ('A' ≤ c ∧ c ≤ 'Z') ∨ ('0' ≤ c ∧ c ≤ '9') ∨ c = '_' ∨ c = '-' := by
  have hupper : c.isUpper = true ↔ 'A' ≤ c ∧ c ≤ 'Z' := decide_eq_true_iff
  have hdigit : c.isDigit = true ↔ '0' ≤ c ∧ c ≤ '9' := by
    simp only [Char.isDigit, Bool.and_eq_true, decide_eq_true_eq]
    rfl
  simp only [isTagChar, Bool.or_eq_true, hupper, hdigit, beq_iff_eq, or_assoc]

theorem isTag_iff {tag : List Char} : isTag tag = true ↔ ToolTag tag := by
  have hword : ∀ word : String, (some word == some (String.ofList tag)) = false ↔
      tag ≠ word.toList := by
    intro word
    rw [Option.some_beq_some, beq_eq_false_iff_ne, ne_comm, ne_eq, ne_eq, ← String.toList_inj,
      String.toList_ofList]
  have hlabels : (labelled.any fun s => s.label? == some (String.ofList tag)) = false ↔
      tag ≠ "NOTE".toList ∧ tag ≠ "WARNING".toList ∧ tag ≠ "ERROR".toList := by
    simp only [labelled, Severity.label?, List.any_cons, List.any_nil, Bool.or_false,
      Bool.or_eq_false_iff, hword]
  have hchars : tag.all isTagChar = true ↔
      ∀ c ∈ tag, ('A' ≤ c ∧ c ≤ 'Z') ∨ ('0' ≤ c ∧ c ≤ '9') ∨ c = '_' ∨ c = '-' := by
    simp only [List.all_eq_true, isTagChar_iff]
  rw [isTag, Bool.and_eq_true, Bool.and_eq_true, Bool.not_eq_true', Bool.not_eq_true', hlabels,
    hchars]
  constructor
  · rintro ⟨⟨hne, hall⟩, hlabel⟩
    exact ⟨by simpa using hne, hall, hlabel⟩
  · intro h
    exact ⟨⟨by simpa using h.ne_nil, h.chars⟩, h.not_label⟩

theorem ToolTag.notMem_colon {tag : List Char} (h : ToolTag tag) : ':' ∉ tag := by
  intro hmem
  have hchar := isTagChar_iff.2 (h.chars ':' hmem)
  exact absurd hchar (by decide)

theorem ToolTag.cut?_eq {tag : List Char} (h : ToolTag tag) (rest : List Char) :
    Text.cut? colon (tag ++ ": ".toList ++ rest) = some (tag, rest) := by
  have hoccurs : Text.occursIn (':' :: [' ']) tag = false :=
    Text.occursIn_eq_false_of_notMem (c := ':') (by simp) h.notMem_colon
  exact (Text.cut?_eq_some_iff (by decide)).2 ⟨rfl, hoccurs⟩

/-- The tag that the reader finds. -/
def tag? (line : List Char) : Option (List Char) :=
  ((Text.cut? colon line).map Prod.fst).filter isTag

theorem layout_dropTag (line : List Char) : Layout line (tag? line) (dropTag line) := by
  -- a tag in front would be what the reader cuts off
  have hbare : (∀ tag rest, Text.cut? colon line = some (tag, rest) → ¬ ToolTag tag) →
      Layout line none line := by
    intro hnone
    refine .bare ?_
    rintro tag rest htag rfl
    exact hnone tag rest (htag.cut?_eq rest) htag
  unfold tag? dropTag
  cases hcut : Text.cut? colon line with
  | none => exact hbare (by simp [hcut])
  | some cut =>
    obtain ⟨tag, rest⟩ := cut
    by_cases htag : isTag tag = true
    · have hline : line = tag ++ ": ".toList ++ rest := Text.eq_append_of_cut?_eq_some hcut
      simpa [htag, Option.filter] using Layout.tagged (isTag_iff.1 htag) hline
    · have hline : Layout line none line := by
        refine hbare ?_
        intro tag' rest' hcut'
        obtain ⟨rfl, rfl⟩ := Prod.mk.inj (Option.some.inj (hcut.symm.trans hcut'))
        exact fun htool => htag (isTag_iff.2 htool)
      simpa [htag, Option.filter] using hline

/-- **A line is laid out in one way**, the one that the reader finds. -/
theorem layout_iff {line body : List Char} {found : Option (List Char)} :
    Layout line found body ↔ found = tag? line ∧ body = dropTag line := by
  have hlayout := layout_dropTag line
  constructor
  · intro h
    cases h with
    | tagged tool eq =>
      have hcut := tool.cut?_eq body
      rw [← eq] at hcut
      simp [tag?, dropTag, hcut, isTag_iff.2 tool, Option.filter]
    | bare untagged =>
      -- the reader's own layout has no tag either
      generalize tag? line = found at hlayout ⊢
      generalize dropTag line = body at hlayout ⊢
      cases hlayout with
      | tagged tool eq => exact absurd eq (untagged _ _ tool)
      | bare _ => exact ⟨rfl, rfl⟩
  · rintro ⟨rfl, rfl⟩
    exact hlayout

/-! ### Labels -/

theorem afterLabel?_eq_some_iff {label : String} {body text : List Char} :
    afterLabel? label body = some text ↔ body = label.toList ++ ": ".toList ++ text := by
  simp only [afterLabel?, Option.bind_eq_some_iff, Text.after?_eq_some_iff, colon]
  constructor
  · rintro ⟨rest, rfl, rfl⟩
    rw [List.append_assoc]
  · intro h
    exact ⟨_, by rw [h, List.append_assoc], rfl⟩

theorem namedOnce?_eq_some_iff {body origin text : List Char} :
    namedOnce? body = some (origin, text) ↔
      body = "WARNING ONCE [".toList ++ origin ++ "]: ".toList ++ text ∧
        ¬ "]: ".toList <:+: origin := by
  have hmark : "]: ".toList = ']' :: [':', ' '] := rfl
  have hopening : "WARNING ONCE [".toList = Event.onceLabel.toList ++ " [".toList := rfl
  simp only [namedOnce?, Option.bind_eq_some_iff, Text.after?_eq_some_iff]
  rw [hmark]
  simp only [Text.cut?_eq_some_iff (show ']' ∉ [':', ' '] by decide),
    Text.occursIn_eq_false_iff]
  rw [hopening]
  constructor
  · rintro ⟨rest, ⟨rest', rfl, rfl⟩, rfl, hfirst⟩
    exact ⟨by simp only [List.append_assoc], hfirst⟩
  · rintro ⟨rfl, hfirst⟩
    exact ⟨origin ++ [']', ':', ' '] ++ text, ⟨_, by simp only [List.append_assoc], rfl⟩, rfl,
      hfirst⟩

theorem afterLabel?_eq_none_iff {label : String} {body : List Char} :
    afterLabel? label body = none ↔ ∀ text, body ≠ label.toList ++ ": ".toList ++ text := by
  rw [Option.eq_none_iff_forall_ne_some]
  exact forall_congr' fun text => not_congr afterLabel?_eq_some_iff

/-- Of two openings neither of which continues the other, a body has at most one. -/
theorem opening_ne {p q body rest : List Char} (hpq : ¬ p <+: q) (hqp : ¬ q <+: p)
    (hp : body = p ++ rest) (rest' : List Char) : body ≠ q ++ rest' := by
  intro hq
  have hp' : p <+: body := ⟨rest, hp.symm⟩
  have hq' : q <+: body := ⟨rest', hq.symm⟩
  rcases List.prefix_or_prefix_of_prefix hp' hq' with h | h
  · exact hpq h
  · exact hqp h

/-! ### Forms -/

/-- A body that does not open with the words of a warning to be reported once is read by the other
labels. -/
theorem eventOfBody_of_not_once {body : List Char}
    (h : ∀ rest, body ≠ "WARNING ONCE".toList ++ rest) (fallback : Origin) :
    eventOfBody fallback body =
      (labelledEvent? labelled body).getD { severity := .message, text := String.ofList body } := by
  have hafter : Text.after? Event.onceLabel.toList body = none := by
    rw [Option.eq_none_iff_forall_ne_some]
    intro rest hrest
    exact h rest (Text.after?_eq_some_iff.1 hrest)
  rw [eventOfBody, afterLabel?, namedOnce?, hafter]
  rfl

theorem eventOfBody_of_labelled {body : List Char} {form : Form} (h : Labelled body form)
    (fallback : Origin) : eventOfBody fallback body = form.event fallback := by
  -- labels are tried one after the other, so those before the right one have to fail
  cases h with
  | once eq =>
    have honce : afterLabel? Event.onceLabel body = some _ := afterLabel?_eq_some_iff.2 eq
    rw [eventOfBody, honce]
    rfl
  | onceFrom eq first =>
    have hnamed : namedOnce? body = some (_, _) := namedOnce?_eq_some_iff.2 ⟨eq, first⟩
    simp only [List.append_assoc] at eq
    have honce : afterLabel? Event.onceLabel body = none :=
      afterLabel?_eq_none_iff.2 (opening_ne (by decide) (by decide) eq)
    rw [eventOfBody, honce, hnamed]
    rfl
  | note eq =>
    have hnote : afterLabel? "NOTE" body = some _ := afterLabel?_eq_some_iff.2 eq
    rw [eventOfBody_of_not_once (opening_ne (by decide) (by decide) eq)]
    simp [labelledEvent?, labelled, Severity.label?, hnote, Form.event]
  | warning eq =>
    have hnote : afterLabel? "NOTE" body = none :=
      afterLabel?_eq_none_iff.2 (opening_ne (by decide) (by decide) eq)
    have hwarning : afterLabel? "WARNING" body = some _ := afterLabel?_eq_some_iff.2 eq
    rw [eventOfBody_of_not_once (opening_ne (by decide) (by decide) eq)]
    simp [labelledEvent?, labelled, Severity.label?, hnote, hwarning, Form.event]
  | error eq =>
    have hnote : afterLabel? "NOTE" body = none :=
      afterLabel?_eq_none_iff.2 (opening_ne (by decide) (by decide) eq)
    have hwarning : afterLabel? "WARNING" body = none :=
      afterLabel?_eq_none_iff.2 (opening_ne (by decide) (by decide) eq)
    have herror : afterLabel? "ERROR" body = some _ := afterLabel?_eq_some_iff.2 eq
    rw [eventOfBody_of_not_once (opening_ne (by decide) (by decide) eq)]
    simp [labelledEvent?, labelled, Severity.label?, hnote, hwarning, herror, Form.event]

theorem eventOfBody_of_unlabelled {body : List Char} (h : ∀ form, ¬ Labelled body form)
    (fallback : Origin) :
    eventOfBody fallback body = { severity := .message, text := String.ofList body } := by
  have honce : afterLabel? Event.onceLabel body = none :=
    afterLabel?_eq_none_iff.2 fun text eq => h _ (.once eq)
  have hnamed : namedOnce? body = none := by
    rw [Option.eq_none_iff_forall_ne_some]
    rintro ⟨origin, text⟩ hsome
    obtain ⟨eq, first⟩ := namedOnce?_eq_some_iff.1 hsome
    exact h _ (.onceFrom eq first)
  have hnote : afterLabel? "NOTE" body = none :=
    afterLabel?_eq_none_iff.2 fun text eq => h _ (.note eq)
  have hwarning : afterLabel? "WARNING" body = none :=
    afterLabel?_eq_none_iff.2 fun text eq => h _ (.warning eq)
  have herror : afterLabel? "ERROR" body = none :=
    afterLabel?_eq_none_iff.2 fun text eq => h _ (.error eq)
  rw [eventOfBody, honce, hnamed]
  simp [labelledEvent?, labelled, Severity.label?, hnote, hwarning, herror]

/-- **The event of a body** is the one that its form stands for. -/
theorem eventOfBody_of_reads {body : List Char} {form : Form} (h : Reads body form)
    (fallback : Origin) : eventOfBody fallback body = form.event fallback := by
  cases h with
  | labelled labelled => exact eventOfBody_of_labelled labelled fallback
  | message unlabelled => exact eventOfBody_of_unlabelled unlabelled fallback

theorem exists_reads (body : List Char) : ∃ form, Reads body form := by
  by_cases h : ∃ form, Labelled body form
  · obtain ⟨form, hform⟩ := h
    exact ⟨form, .labelled hform⟩
  · exact ⟨_, .message fun form hform => h ⟨form, hform⟩⟩

/-- Forms are told apart by their events, if the fallback may be chosen. -/
theorem Form.event_inj {form form' : Form}
    (h : ∀ fallback, form.event fallback = form'.event fallback) : form = form' := by
  -- an origin that no line can name
  have hcode := h (.callSite "" 0 0)
  clear h
  cases form <;> cases form' <;>
    simp_all [Form.event, Event.onceWarning, ← String.toList_inj]

theorem Reads.unique {body : List Char} {form form' : Form} (h : Reads body form)
    (h' : Reads body form') : form = form' := by
  apply Form.event_inj
  intro fallback
  rw [← eventOfBody_of_reads h, ← eventOfBody_of_reads h']

/-! ### Visible ends -/

/-- The text of a form. -/
def Form.text : Form → List Char
  | .once text | .onceFrom _ text | .plain _ text => text

theorem Form.toList_text_event (form : Form) (fallback : Origin) :
    (form.event fallback).text.toList = form.text := by
  cases form <;> simp [Form.event, Form.text, Event.onceWarning]

theorem Layout.endsVisibly {line body : List Char} {found : Option (List Char)}
    (h : Layout line found body) (hline : Text.EndsVisibly line) : Text.EndsVisibly body := by
  cases h with
  | @tagged tag body tool eq =>
    have hblank : line = (tag ++ [':']) ++ ' ' :: body := by simpa using eq
    rw [hblank] at hline
    exact hline.of_append_blank rfl
  | bare => exact hline

theorem Labelled.exists_eq_append {body : List Char} {form : Form} (h : Labelled body form) :
    ∃ front, body = front ++ ' ' :: form.text := by
  cases h with
  | once eq => exact ⟨"WARNING ONCE:".toList, eq⟩
  | @onceFrom origin text eq first =>
    exact ⟨"WARNING ONCE [".toList ++ origin ++ "]:".toList, by simpa [Form.text] using eq⟩
  | note eq => exact ⟨"NOTE:".toList, eq⟩
  | warning eq => exact ⟨"WARNING:".toList, eq⟩
  | error eq => exact ⟨"ERROR:".toList, eq⟩

theorem Reads.endsVisibly {body : List Char} {form : Form} (h : Reads body form)
    (hbody : Text.EndsVisibly body) : Text.EndsVisibly form.text := by
  cases h with
  | labelled labelled =>
    obtain ⟨front, hfront⟩ := labelled.exists_eq_append
    rw [hfront] at hbody
    exact hbody.of_append_blank rfl
  | message => exact hbody

/-! ### Lines -/

theorem eventOfChars?_eq_none_iff {fallback : Origin} {line : List Char} :
    eventOfChars? fallback line = none ↔ Text.trimEnd line = [] := by
  unfold eventOfChars?
  split
  · next h => simp [h]
  · next h => simpa using h

theorem eventOfChars?_eq_some {fallback : Origin} {line body : List Char}
    {found : Option (List Char)} {form : Form} (hne : Text.trimEnd line ≠ [])
    (hlayout : Layout (Text.trimEnd line) found body) (hreads : Reads body form) :
    eventOfChars? fallback line = some (form.event fallback) := by
  obtain ⟨-, rfl⟩ := layout_iff.1 hlayout
  unfold eventOfChars?
  split
  · next h => exact absurd h hne
  · rw [eventOfBody_of_reads hreads]

theorem exists_form_of_eventOfChars? {fallback : Origin} {line : List Char} {event : Event}
    (h : eventOfChars? fallback line = some event) :
    ∃ found body form, Layout (Text.trimEnd line) found body ∧ Reads body form ∧
      Text.EndsVisibly form.text ∧ event = form.event fallback := by
  have hne : Text.trimEnd line ≠ [] := by
    intro hnil
    rw [eventOfChars?_eq_none_iff.2 hnil] at h
    cases h
  obtain ⟨form, hreads⟩ := exists_reads (dropTag (Text.trimEnd line))
  have hlayout := layout_iff.2 (⟨rfl, rfl⟩ : tag? (Text.trimEnd line) = _ ∧ _)
  have hevent : eventOfChars? fallback line = some (form.event fallback) :=
    eventOfChars?_eq_some hne hlayout hreads
  have hvisible := hreads.endsVisibly (hlayout.endsVisibly (Text.endsVisibly_trimEnd hne))
  rw [h] at hevent
  exact ⟨_, _, form, hlayout, hreads, hvisible, Option.some.inj hevent⟩

/-- **The reader of lines accepts exactly the grammar.** Let a line be given, without the blanks
at its end:

* there is exactly one way to read it: one tag or none, one body, and one form of this body;
* it has no event exactly if it is empty, and otherwise
* its body has a form exactly if, whatever the fallback for warnings that name no origin, the
  event of the line is the one that the form stands for (a warning that names the fallback itself
  and one that names no origin are told apart by another fallback);
* for any one fallback, its event is that of the form of its body;
* the text of its event ends in a character that is not blank. -/
theorem line_grammar (line : String) :
    (∃ found body form, Layout (Text.trimEnd line.toList) found body ∧ Reads body form ∧
      ∀ found' body' form', Layout (Text.trimEnd line.toList) found' body' → Reads body' form' →
        found' = found ∧ body' = body ∧ form' = form) ∧
    (∀ fallback, eventOfLine? line fallback = none ↔ Text.trimEnd line.toList = []) ∧
    ∀ found body, Layout (Text.trimEnd line.toList) found body → Text.trimEnd line.toList ≠ [] →
      (∀ form, Reads body form ↔
        ∀ fallback, eventOfLine? line fallback = some (form.event fallback)) ∧
      ∀ fallback event,
        (eventOfLine? line fallback = some event ↔
          ∃ form, Reads body form ∧ event = form.event fallback) ∧
        (eventOfLine? line fallback = some event → Text.EndsVisibly event.text.toList) := by
  refine ⟨?_, fun fallback => eventOfChars?_eq_none_iff, ?_⟩
  · obtain ⟨form, hreads⟩ := exists_reads (dropTag (Text.trimEnd line.toList))
    refine ⟨_, _, form, layout_iff.2 ⟨rfl, rfl⟩, hreads, ?_⟩
    intro found' body' form' hlayout' hreads'
    obtain ⟨rfl, rfl⟩ := layout_iff.1 hlayout'
    exact ⟨rfl, rfl, hreads'.unique hreads⟩
  · intro found body hlayout hne
    have hevent : ∀ form, Reads body form → ∀ fallback,
        eventOfLine? line fallback = some (form.event fallback) :=
      fun form hreads fallback => eventOfChars?_eq_some hne hlayout hreads
    obtain ⟨form₀, hreads₀⟩ := exists_reads body
    refine ⟨fun form => ⟨hevent form, fun h => ?_⟩, fun fallback event => ⟨⟨fun h => ?_, ?_⟩, ?_⟩⟩
    · have hform : form = form₀ := by
        apply Form.event_inj
        intro fallback
        exact Option.some.inj ((h fallback).symm.trans (hevent form₀ hreads₀ fallback))
      rw [hform]
      exact hreads₀
    · rw [hevent form₀ hreads₀] at h
      exact ⟨form₀, hreads₀, (Option.some.inj h).symm⟩
    · rintro ⟨form, hreads, rfl⟩
      exact hevent form hreads fallback
    · intro h
      obtain ⟨-, -, form, -, -, hvisible, rfl⟩ := exists_form_of_eventOfChars? h
      rw [Form.toList_text_event]
      exact hvisible

/-- A tool tells of a warning that names its origin; what follows the first closing bracket looks
like an error, and the line ends in blanks. -/
theorem line_grammar_tagged :
    Layout (Text.trimEnd "KLEE: WARNING ONCE [f.c]: ERROR: [g]: x \u00a0\r".toList)
      (some "KLEE".toList) "WARNING ONCE [f.c]: ERROR: [g]: x".toList ∧
    Text.trimEnd "KLEE: WARNING ONCE [f.c]: ERROR: [g]: x \u00a0\r".toList ≠ [] ∧
    eventOfLine? "KLEE: WARNING ONCE [f.c]: ERROR: [g]: x \u00a0\r" (.named "run.log") =
      some (.onceWarning (.named "f.c") "ERROR: [g]: x") ∧
    Text.EndsVisibly "ERROR: [g]: x".toList := by
  have htool : ToolTag "KLEE".toList := isTag_iff.1 (by decide)
  have htrim : Text.trimEnd "KLEE: WARNING ONCE [f.c]: ERROR: [g]: x \u00a0\r".toList =
      "KLEE: WARNING ONCE [f.c]: ERROR: [g]: x".toList := by
    decide +kernel
  have hlayout : Layout (Text.trimEnd "KLEE: WARNING ONCE [f.c]: ERROR: [g]: x \u00a0\r".toList)
      (some "KLEE".toList) "WARNING ONCE [f.c]: ERROR: [g]: x".toList := by
    rw [htrim]
    exact .tagged htool rfl
  have hne : Text.trimEnd "KLEE: WARNING ONCE [f.c]: ERROR: [g]: x \u00a0\r".toList ≠ [] := by
    rw [htrim]
    decide
  have hreads : Reads "WARNING ONCE [f.c]: ERROR: [g]: x".toList
      (.onceFrom "f.c".toList "ERROR: [g]: x".toList) :=
    .labelled (.onceFrom rfl (by decide))
  obtain ⟨-, -, hread⟩ := line_grammar "KLEE: WARNING ONCE [f.c]: ERROR: [g]: x \u00a0\r"
  obtain ⟨hforms, hevents⟩ := hread _ _ hlayout hne
  have hevent := (hforms _).1 hreads (.named "run.log")
  exact ⟨hlayout, hne, hevent, (hevents (.named "run.log") _).2 hevent⟩

end Transcript

end DiagnosticReport
