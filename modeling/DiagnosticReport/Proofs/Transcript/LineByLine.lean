import DiagnosticReport.Proofs.Transcript.Grammar
import Mathlib.Data.List.Forall2

/-!
# Logs are read line by line

A log is cut at its line breaks, and each piece is read on its own. So the log of two runs, one
behind the other with a line break between them, is read as the events of both
(`Transcript.events_append_break`). What ends a line besides the line break does not matter, as long
as it is blank: a carriage return, or any other blanks (`Transcript.events_append_blanks`). Blank
lines are passed over, and each of the others has one event (`Transcript.forall₂_events`), of which
no part that stands in the line holds a line break (`Transcript.notMem_of_eventOfChars?`).

* `Transcript.linewise` : **a log is read line by line.**
-/

namespace DiagnosticReport

namespace Transcript

/-- The lines of a log. Behind a line break at the end there is an empty line. -/
def lines (content : String) : List (List Char) :=
  content.toList.splitOn '\n'

/-- Whether a line shows anything. -/
def isVisible (line : List Char) : Bool :=
  line.any fun c => !Text.isBlank c

theorem events_eq_filterMap_lines (content source : String) :
    events content source = (lines content).filterMap (eventOfChars? (.named source)) := rfl

/-! ### Pieces of a log -/

theorem lines_append_break (a b : String) : lines (a ++ "\n" ++ b) = lines a ++ lines b := by
  have htext : (a ++ "\n" ++ b).toList = a.toList ++ '\n' :: b.toList := by simp
  rw [lines, htext, List.splitOn_append_cons_self]
  rfl

/-- **A log that is cut at a line break** is read as its two parts. -/
theorem events_append_break (a b source : String) :
    events (a ++ "\n" ++ b) source = events a source ++ events b source := by
  rw [events_eq_filterMap_lines, lines_append_break, List.filterMap_append]
  rfl

/-- What is added to a text without a line break is added to its last line. -/
theorem splitOn_append_of_notMem {more : List Char} (h : '\n' ∉ more) (cs : List Char) :
    ∃ front last, cs.splitOn '\n' = front ++ [last] ∧
      (cs ++ more).splitOn '\n' = front ++ [last ++ more] := by
  induction cs with
  | nil => exact ⟨[], [], List.splitOn_nil _, List.splitOn_eq_singleton h⟩
  | cons c cs ih =>
    obtain ⟨front, last, hcs, hmore⟩ := ih
    rw [List.cons_append, List.splitOn_cons_eq_if_modifyHead, List.splitOn_cons_eq_if_modifyHead,
      hcs, hmore]
    split
    · exact ⟨[] :: front, last, rfl, rfl⟩
    · cases front with
      | nil => exact ⟨[], c :: last, rfl, rfl⟩
      | cons first front => exact ⟨(c :: first) :: front, last, rfl, rfl⟩

/-! ### Blank ends -/

theorem eventOfChars?_append_blanks {blanks : List Char} (h : blanks.all Text.isBlank = true)
    (fallback : Origin) (line : List Char) :
    eventOfChars? fallback (line ++ blanks) = eventOfChars? fallback line := by
  rw [eventOfChars?, Text.trimEnd_append_blanks h, eventOfChars?]

/-- **Blanks at the end of a log**, as long as they do not break its last line, do not matter. -/
theorem events_append_blanks {blanks : String} (hblank : blanks.toList.all Text.isBlank = true)
    (hbreak : '\n' ∉ blanks.toList) (a source : String) :
    events (a ++ blanks) source = events a source := by
  obtain ⟨front, last, ha, hblanks⟩ := splitOn_append_of_notMem hbreak a.toList
  have hlast := eventOfChars?_append_blanks hblank (.named source) last
  rw [events, events, String.toList_append, hblanks, ha, List.filterMap_append,
    List.filterMap_append, List.filterMap_cons, List.filterMap_cons, hlast]

/-! ### Events and lines -/

theorem isSome_eventOfChars? (fallback : Origin) (line : List Char) :
    (eventOfChars? fallback line).isSome = isVisible line := by
  rw [Bool.eq_iff_iff, Option.isSome_iff_ne_none, Ne, eventOfChars?_eq_none_iff,
    Text.trimEnd_eq_nil_iff]
  simp [isVisible]

/-- **The events of some lines** are those of the lines that show anything, one for each. -/
theorem forall₂_events (fallback : Origin) (ls : List (List Char)) :
    List.Forall₂ (fun line event => eventOfChars? fallback line = some event)
      (ls.filter isVisible) (ls.filterMap (eventOfChars? fallback)) := by
  induction ls with
  | nil => exact .nil
  | cons line ls ih =>
    have hvisible := isSome_eventOfChars? fallback line
    cases hevent : eventOfChars? fallback line with
    | none =>
      rw [hevent] at hvisible
      rw [List.filter_cons_of_neg (by simp [← hvisible]), List.filterMap_cons_none hevent]
      exact ih
    | some event =>
      rw [hevent] at hvisible
      rw [List.filter_cons_of_pos hvisible.symm, List.filterMap_cons_some hevent]
      exact .cons hevent ih

/-! ### Line breaks -/

theorem notMem_of_mem_splitOn {cs line : List Char} (h : line ∈ cs.splitOn '\n') :
    '\n' ∉ line := by
  induction cs generalizing line with
  | nil =>
    rw [List.splitOn_nil, List.mem_singleton] at h
    simp [h]
  | cons c cs ih =>
    rw [List.splitOn_cons_eq_if_modifyHead] at h
    split at h
    next =>
      rcases List.mem_cons.1 h with rfl | h
      · simp
      · exact ih h
    next hc =>
      cases hsplit : cs.splitOn '\n' with
      | nil => exact absurd hsplit (List.splitOn_ne_nil _ _)
      | cons first rest =>
        rw [hsplit] at h ih
        rcases List.mem_cons.1 h with rfl | h
        · have hfirst := ih List.mem_cons_self
          have hne : '\n' ≠ c := fun heq => hc (by rw [heq]; exact beq_self_eq_true c)
          exact List.not_mem_cons_of_ne_of_not_mem hne hfirst
        · exact ih (List.mem_cons_of_mem _ h)

theorem Layout.subset {line body : List Char} {found : Option (List Char)}
    (h : Layout line found body) : body ⊆ line := by
  cases h with
  | tagged tool eq =>
    rw [eq]
    exact List.subset_append_right _ _
  | bare => exact List.Subset.refl _

theorem Reads.subset {body : List Char} {form : Form} (h : Reads body form) :
    form.text ⊆ body ∧ ∀ origin text, form = .onceFrom origin text → origin ⊆ body := by
  cases h with
  | labelled labelled =>
    obtain ⟨front, hfront⟩ := labelled.exists_eq_append
    refine ⟨fun c hc => by simp [hfront, hc], ?_⟩
    rintro origin text rfl c hc
    cases labelled with
    | onceFrom eq first => simp [eq, hc]
  | message => exact ⟨List.Subset.refl _, by rintro origin text ⟨⟩⟩

/-- **What is taken from a line is not broken**: the text of its event, and its origin, if that is
not the fallback. -/
theorem notMem_of_eventOfChars? {fallback : Origin} {line : List Char} {event : Event}
    (hline : '\n' ∉ line) (h : eventOfChars? fallback line = some event) :
    '\n' ∉ event.text.toList ∧ ∀ name, event.origin = some (.named name) →
      fallback ≠ .named name → '\n' ∉ name.toList := by
  obtain ⟨found, body, form, hlayout, hreads, -, rfl⟩ := exists_form_of_eventOfChars? h
  obtain ⟨blanks, htrim, -⟩ := Text.exists_trimEnd_append line
  have hbody : '\n' ∉ body := fun hmem =>
    hline (htrim ▸ List.mem_append_left _ (hlayout.subset hmem))
  obtain ⟨htext, horigin⟩ := hreads.subset
  refine ⟨fun hmem => hbody (htext (form.toList_text_event fallback ▸ hmem)), ?_⟩
  intro name hname hfallback
  cases form with
  | once text => exact absurd (Option.some.inj hname) hfallback
  | onceFrom origin text =>
    obtain rfl : String.ofList origin = name := Origin.named.inj (Option.some.inj hname)
    rw [String.toList_ofList]
    exact fun hmem => hbody (horigin origin text rfl hmem)
  | plain => cases hname

/-! ### Logs -/

/-- **A log is read line by line.** In a log that goes by `source`:

* what stands before and behind a line break is read as if it stood alone;
* blanks before a line break or at the end, other than line breaks, change nothing;
* the events are those of the lines that show anything, one for each and in their order;
* neither the text of an event nor an origin that its line names holds a line break (an origin that
  is not the fallback has been named by the line). -/
theorem linewise (source : String) :
    (∀ a b, events (a ++ "\n" ++ b) source = events a source ++ events b source) ∧
    (∀ a blanks : String, blanks.toList.all Text.isBlank = true → '\n' ∉ blanks.toList →
      events (a ++ blanks) source = events a source ∧
        ∀ b, events (a ++ blanks ++ "\n" ++ b) source = events (a ++ "\n" ++ b) source) ∧
    (∀ content, (events content source).length = (lines content).countP isVisible ∧
      List.Forall₂ (fun line event => eventOfChars? (.named source) line = some event)
        ((lines content).filter isVisible) (events content source)) ∧
    ∀ content, ∀ line ∈ lines content, ∀ fallback event,
      eventOfChars? fallback line = some event →
        '\n' ∉ event.text.toList ∧ ∀ name, event.origin = some (.named name) →
          fallback ≠ .named name → '\n' ∉ name.toList := by
  refine ⟨fun a b => events_append_break a b source, ?_, ?_, ?_⟩
  · intro a blanks hblank hbreak
    refine ⟨events_append_blanks hblank hbreak a source, fun b => ?_⟩
    rw [events_append_break, events_append_blanks hblank hbreak, events_append_break]
  · intro content
    have hevents := forall₂_events (.named source) (lines content)
    refine ⟨?_, hevents⟩
    rw [List.countP_eq_length_filter]
    exact hevents.length_eq.symm
  · intro content line hline fallback event hevent
    exact notMem_of_eventOfChars? (notMem_of_mem_splitOn hline) hevent

/-- Lines that end in a carriage return and in other blanks, a blank line, and no line break at the
end. -/
theorem linewise_carriage_return :
    "\r".toList.all Text.isBlank = true ∧ '\n' ∉ "\r".toList ∧
    events ("KLEE: NOTE: a" ++ "\r" ++ "\n" ++ "\u00a0\r\n\nERROR: b\r") "run.log" =
      events ("KLEE: NOTE: a" ++ "\n" ++ "\u00a0\r\n\nERROR: b\r") "run.log" ∧
    (events "KLEE: NOTE: a\n\u00a0\r\n\nERROR: b\r" "run.log").length = 2 ∧
    '\n' ∉ ({ severity := .error, text := "b" } : Event).text.toList := by
  obtain ⟨-, hblanks, hevents, hbreaks⟩ := linewise "run.log"
  have hblank : "\r".toList.all Text.isBlank = true := by decide +kernel
  have hbreak : '\n' ∉ "\r".toList := by decide +kernel
  obtain ⟨-, hbefore⟩ := hblanks "KLEE: NOTE: a" "\r" hblank hbreak
  obtain ⟨hlength, -⟩ := hevents "KLEE: NOTE: a\n\u00a0\r\n\nERROR: b\r"
  have hcount : (lines "KLEE: NOTE: a\n\u00a0\r\n\nERROR: b\r").countP isVisible = 2 := by
    decide +kernel
  have hline : "ERROR: b\r".toList ∈ lines "KLEE: NOTE: a\n\u00a0\r\n\nERROR: b\r" := by
    decide +kernel
  have hevent : eventOfChars? (.named "run.log") "ERROR: b\r".toList =
      some { severity := .error, text := "b" } := by
    decide +kernel
  obtain ⟨htext, -⟩ := hbreaks _ _ hline _ _ hevent
  exact ⟨hblank, hbreak, hbefore _, hlength.trans hcount, htext⟩

end Transcript

end DiagnosticReport
