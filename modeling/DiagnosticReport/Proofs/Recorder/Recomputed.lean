import DiagnosticReport.Proofs.Markup.Nesting
import DiagnosticReport.Proofs.Recorder.Independence

/-!
# Findings can be recomputed from their texts

A finding is an info or a failure. Which of the two, with which category or kind, and under which
identifier it is shown, is decided by tables that refer to one another: the rules that find the
category of a text, the categories that are kinds of failures, and the identifiers.
`Entry.FoundIn` says which findings a text may lead to, without a computation, and
`Recorder.recomputed` that the tables agree in every session.

* `Entry.foundIn_iff` : a text leads to one finding only.
* `Entry.FoundIn.markup_eq` : how that finding is shown.
* `Recorder.ComesFrom` : the turns that an entry may come from. What a recorder has handed over and
  what it still keeps comes from its turns, in order and each entry from a turn of its own.
-/

namespace DiagnosticReport

open Markup

namespace Category

theorem escape_identifier (place : Place) (category : Category) :
    escape place category.identifier = category.identifier := by
  cases place <;> cases category <;> decide +kernel

theorem findingClass_of_failureKind?_eq_none {category : Category}
    (h : category.failureKind? = none) : category.findingClass = .info := by
  simp [findingClass, h]

end Category

theorem FailureKind.findingClass_category (kind : FailureKind) :
    kind.category.findingClass = .failure := by
  cases kind <;> rfl

namespace Entry

/-- The findings that a text leads to. -/
inductive FoundIn (text : String) : Entry → Prop where
  /-- An info about the category of the text, which is no kind of failure. -/
  | info {category : Category} (category_eq : Category.ofText text = category)
      (informs : category.failureKind? = none) : FoundIn text (.info { category, message := text })
  /-- A failure, nowhere in particular, of a kind that stands for the category of the text. -/
  | failure {kind : FailureKind} (category_eq : Category.ofText text = kind.category) :
      FoundIn text (.failure { kind, message := text, location := none })

/-- How a text that is not empty is reported: under the name of the class of its category, with the
identifier of its category. -/
def findingMarkup (text : String) : String :=
  "<" ++ (Category.ofText text).findingClass.identifier ++
    (" " ++ (Category.ofText text).findingClass.identifier ++ "-id=\"" ++
      (Category.ofText text).identifier ++ "\"") ++
    ">\n<message>" ++ escape .content text ++ "</message>\n</" ++
    (Category.ofText text).findingClass.identifier ++ ">"

variable {text : String} {entry : Entry}

theorem foundIn_ofText (text : String) : (ofText text).FoundIn text := by
  cases hkind : (Category.ofText text).failureKind? with
  | some kind =>
    have hfailure : ofText text = .failure { kind, message := text } := by simp [ofText, hkind]
    exact hfailure ▸ .failure (Category.failureKind?_eq_some_iff.1 hkind).symm
  | none =>
    have hinfo : ofText text = .info { category := Category.ofText text, message := text } := by
      simp [ofText, hkind]
    exact hinfo ▸ .info rfl hkind

/-- **A text leads to one finding.** -/
theorem foundIn_iff : entry.FoundIn text ↔ entry = ofText text := by
  refine ⟨fun h => ?_, fun h => h ▸ foundIn_ofText text⟩
  cases h with
  | info category_eq informs =>
    subst category_eq
    simp [ofText, informs]
  | failure category_eq =>
    have hkind := Category.failureKind?_eq_some_iff.2 category_eq.symm
    simp [ofText, hkind]

theorem FoundIn.markup_ne_empty_iff (h : entry.FoundIn text) :
    entry.markup ≠ "" ↔ text ≠ "" := by
  cases h with
  | info =>
    by_cases htext : text = "" <;>
      simp [markup, element?, Info.element?, Element.text?, htext, Element.render_ne_empty]
  | failure =>
    by_cases htext : text = "" <;>
      simp [markup, element?, Failure.element?, Failure.parts, Element.text?, htext,
        Element.render_ne_empty]

theorem render_group_message (tag : GroupTag) (a : Attribute) (text : String) :
    (Element.group tag [a] [.text .message text]).render =
      "<" ++ tag.label ++ a.render ++ ">\n<message>" ++ escape .content text ++ "</message>\n</" ++
        tag.label ++ ">" := by
  apply String.toList_inj.1
  simp [Element.render_group, openingTag, closingTag, tagText, lineSeparator, TextTag.label]

/-- **How a finding is shown.** -/
theorem FoundIn.markup_eq (h : entry.FoundIn text) (hne : text ≠ "") :
    entry.markup = findingMarkup text := by
  cases h with
  | @info category category_eq informs =>
    have hclass := Category.findingClass_of_failureKind?_eq_none informs
    have hid : (Attribute.mk .infoId category.identifier).render =
        " info-id=\"" ++ category.identifier ++ "\"" := by
      rw [Attribute.render, category.escape_identifier]
      rfl
    have helement : element? (.info { category, message := text }) =
        some (.group .info [⟨.infoId, category.identifier⟩] [.text .message text]) := by
      simp [element?, Info.element?, Element.text?, hne]
    rw [markup, helement, markup_some, render_group_message, hid, findingMarkup, category_eq,
      hclass]
    rfl
  | @failure kind category_eq =>
    have hid : (Attribute.mk .failureId kind.identifier).render =
        " failure-id=\"" ++ kind.category.identifier ++ "\"" := by
      rw [Attribute.render, FailureKind.identifier, Category.escape_identifier]
      rfl
    have helement : element? (.failure { kind, message := text }) =
        some (.group .failure [⟨.failureId, kind.identifier⟩] [.text .message text]) := by
      simp [element?, Failure.element?, Failure.parts, Element.text?, hne]
    rw [markup, helement, markup_some, render_group_message, hid, findingMarkup,
      category_eq, kind.findingClass_category]
    rfl

end Entry

namespace Recorder

/-! ### Where the entries come from -/

/-- The turns that an entry may come from. -/
inductive ComesFrom : Entry → Turn → Prop where
  /-- An issue is recorded as it is. -/
  | issue {x : Turn} {issue : Issue} (input : x.input = .addIssue issue) :
      ComesFrom (.issue issue) x
  /-- An event leads to a finding with its text. -/
  | event {x : Turn} {event : Event} {entry : Entry} (input : x.input = .record event)
      (found : entry.FoundIn event.text) : ComesFrom entry x

theorem comesFrom_of_keptBy? {settings : RecorderSettings} {x : Turn} {entry : Entry}
    (h : keptBy? settings x = some entry) : ComesFrom entry x := by
  unfold keptBy? at h
  split at h
  · -- with events
    unfold producedBy? at h
    split at h
    next issue _ hinput => exact Option.some.inj h ▸ .issue hinput
    next => cases h
    next event _ _ hinput _ =>
      exact .event hinput (Entry.foundIn_iff.2 (Option.some.inj h).symm)
    next => cases h
  · -- without
    unfold issueOf? at h
    split at h
    next issue hinput => exact Option.some.inj h ▸ .issue hinput
    next => cases h

theorem sublistForall₂_filterMap {α β : Type} {R : β → α → Prop} {f : α → Option β}
    (h : ∀ a b, f a = some b → R b a) (xs : List α) :
    List.SublistForall₂ R (xs.filterMap f) xs := by
  induction xs with
  | nil => exact .nil
  | cons x xs ih =>
    cases hx : f x with
    | none => simpa [hx] using .cons_right ih
    | some b => simpa [hx] using .cons (h x b hx) ih

theorem analysis_of_close {r : Recorder} {analysis : Analysis}
    (h : r.close.result = .ok analysis) : analysis = r.analysis := by
  unfold close at h
  split at h
  · exact (Except.ok.inj h).symm
  · dsimp only at h
    split at h
    · exact (Except.ok.inj h).symm
    · cases h

/-- **Findings can be recomputed from their texts.** In every session, whatever the settings and the
output:

* A finding that is returned for an event is one that the text of the event leads to: an info with
  the category of the text, which is no kind of failure, or a failure of the kind that stands for
  the category of the text, without a location.
* The entries handed over on request and those still kept come from the turns, in order and each
  from a turn of its own: from an issue the issue itself, from an event a finding as above.
* What is handed over at the end is what was still kept.
* A finding is shown exactly if its text is not empty, and then under the name of its class, with
  the identifier of the category of its text. -/
theorem recomputed (metadata : Metadata) (settings : RecorderSettings) (output : Option Output)
    (requests : List Request) :
    (∀ x ∈ Run.history answer (start metadata settings output) requests, ∀ event entry,
      x.input = .record event → x.answer = .recorded (.ok (some entry)) →
      entry.FoundIn event.text) ∧
    List.SublistForall₂ ComesFrom
      (drained (Run.history answer (start metadata settings output) requests) ++
        (Run.final answer (start metadata settings output) requests).analysis.results)
      (Run.history answer (start metadata settings output) requests) ∧
    (∀ analysis,
      (Run.final answer (start metadata settings output) requests).close.result = .ok analysis →
      analysis = (Run.final answer (start metadata settings output) requests).analysis) ∧
    ∀ (text : String) (entry : Entry), entry.FoundIn text →
      (entry.markup ≠ "" ↔ text ≠ "") ∧
      (text ≠ "" → entry.markup = Entry.findingMarkup text) := by
  refine ⟨fun x hx event entry hinput hanswer => ?_, ?_, fun analysis => analysis_of_close,
    fun text entry h => ⟨h.markup_ne_empty_iff, h.markup_eq⟩⟩
  · -- the turn is a step of the recorder as it was then
    have hstep := congrArg Exchange.answer (Run.eq_exchange_of_mem hx)
    rw [hanswer, hinput] at hstep
    rw [eq_ofText_of_record (Answer.recorded.inj hstep).symm]
    exact Entry.foundIn_ofText event.text
  · have hkept := kept_history (start metadata settings output) requests
    have hempty : (start metadata settings output).analysis.results = [] := rfl
    rw [hempty, List.nil_append] at hkept
    rw [hkept]
    exact sublistForall₂_filterMap (fun x entry => comesFrom_of_keptBy?) _

end Recorder

end DiagnosticReport
