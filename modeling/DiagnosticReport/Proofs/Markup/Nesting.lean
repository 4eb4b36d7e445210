import DiagnosticReport.Proofs.Markup.UniqueReading
import DiagnosticReport.Proofs.Run

/-!
# Tags nest

A `Scan` reads a text from left to right with a stack of the elements that are open. It knows what a
tag looks like and which elements have to hold something, and nothing of the trees that texts are
made from. A text is `WellNested` if the scan comes to its end: every bracket starts a tag that ends
at the next closing bracket, every closing tag closes the innermost open element, which holds what
it has to hold, and the stack is empty again behind the last character and not earlier.

`Element.wellNested_render` says that every element is well nested whose texts are not empty and
whose groups have children, traces and results excepted (`Element.Filled`). It is proved for any
stack: whatever is open, an element is read as one child of the innermost open element.
-/

namespace DiagnosticReport

namespace Markup

/-! ### Reading tags -/

/-- An element whose opening tag has been read. -/
structure OpenElement where
  /-- The name of the element. -/
  name : String
  /-- Whether it holds any character outside of tags. -/
  hasText : Bool := false
  /-- How many elements it holds. -/
  children : Nat := 0
  deriving DecidableEq

namespace OpenElement

/-- An element with a name of this kind may be left empty. -/
def emptyNames : List String := ["trace", "results"]

/-- An element with a name of this kind has to hold a text. -/
def textNames : List String := ["message", "notes"]

/-- Whether an element holds what it has to hold: a text, or else an element. -/
def isFilled (e : OpenElement) : Bool :=
  e.name ∈ emptyNames || if e.name ∈ textNames then e.hasText else e.children != 0

end OpenElement

namespace Scan

/-- What is being read. -/
inductive Mode where
  /-- Text, or the next tag. -/
  | between
  /-- The first character behind an opening bracket. -/
  | bracket
  /-- The name in an opening tag, of which this has been read. -/
  | opening (name : List Char)
  /-- The name of an attribute, of which nothing has been read. -/
  | blank (name : List Char)
  /-- The name of an attribute. -/
  | key (name : List Char)
  /-- The quote in front of a value. -/
  | equals (name : List Char)
  /-- A value. -/
  | value (name : List Char)
  /-- What follows the quote behind a value. -/
  | quoted (name : List Char)
  /-- The bracket that ends a tag that closes itself. -/
  | slash
  /-- The name in a closing tag, of which this has been read. -/
  | closing (name : List Char)
  /-- Nothing: the outermost element has been closed. -/
  | ended
  deriving DecidableEq

end Scan

/-- A scan of a text, between two of its characters. -/
structure Scan where
  /-- What is being read. -/
  mode : Scan.Mode := .between
  /-- The elements that are open, the innermost first. -/
  stack : List OpenElement := []
  deriving DecidableEq

namespace Scan

/-- An element is complete: it is a child of the innermost open element, or the scan is at its
end. -/
def complete : List OpenElement → Scan
  | [] => { mode := .ended }
  | e :: stack => { stack := { e with children := e.children + 1 } :: stack }

/-- A character of a text; outside of all elements there is none. -/
def readText : List OpenElement → Option Scan
  | [] => none
  | e :: stack => some { stack := { e with hasText := true } :: stack }

/-- What follows the name or an attribute in an opening tag: an attribute or the end of the tag. -/
def readBehind (stack : List OpenElement) (name : List Char) (c : Char) : Option Scan :=
  if c = ' ' then some { mode := .blank name, stack }
  else if c = '/' then some { mode := .slash, stack }
  else if c = '>' then some { stack := { name := String.ofList name } :: stack }
  else none

/-- A closing tag closes the innermost open element, if that has its name and is filled. -/
def close (name : List Char) : List OpenElement → Option Scan
  | [] => none
  | e :: stack =>
    if e.name = String.ofList name ∧ e.isFilled = true then some (complete stack) else none

/-- Reads a character, if it can stand here. -/
def step (s : Scan) (c : Char) : Option Scan :=
  match s.mode with
  | .between =>
    if c = '<' then some { s with mode := .bracket }
    else if c = '>' then none
    else readText s.stack
  | .bracket =>
    if c = '/' then some { s with mode := .closing [] }
    else if IsNameChar c then some { s with mode := .opening [c] }
    else none
  | .opening name =>
    if IsNameChar c then some { s with mode := .opening (name ++ [c]) }
    else readBehind s.stack name c
  | .blank name => if IsNameChar c then some { s with mode := .key name } else none
  | .key name =>
    if IsNameChar c then some s else if c = '=' then some { s with mode := .equals name } else none
  | .equals name => if c = '"' then some { s with mode := .value name } else none
  | .value name =>
    if c = '"' then some { s with mode := .quoted name }
    else if c = '<' ∨ c = '>' then none
    else some s
  | .quoted name => readBehind s.stack name c
  | .slash => if c = '>' then some (complete s.stack) else none
  | .closing name =>
    if IsNameChar c then some { s with mode := .closing (name ++ [c]) }
    else if c = '>' then close name s.stack
    else none
  | .ended => none

end Scan

/-- A text that is exactly one element, with all tags nested and no element left empty that has to
hold something. -/
def WellNested (text : String) : Prop :=
  Run.final? Scan.step {} text.toList = some { mode := .ended }

instance : DecidablePred WellNested := fun text =>
  inferInstanceAs (Decidable (Run.final? Scan.step {} text.toList = some { mode := .ended }))

example : WellNested "<issue>\n<message>a &lt; b</message>\n<trace>\n</trace>\n</issue>" := by
  decide +kernel

example : ¬ WellNested "<trace><state></trace></state>" ∧ ¬ WellNested "<message></message>" ∧
    ¬ WellNested "<file given-path=\"a>b\"/>" ∧ ¬ WellNested "<trace></trace>\n" := by
  decide +kernel

namespace Scan

open Run

variable {stack : List OpenElement} {name : List Char}

/-! ### Tags -/

/-- A scan that has read the name and some attributes of an opening tag. -/
def Behind (name : List Char) (mode : Mode) : Prop :=
  mode = .opening name ∨ mode = .quoted name

theorem step_behind {mode : Mode} (h : Behind name mode) {c : Char} (hc : ¬ IsNameChar c) :
    step ⟨mode, stack⟩ c = readBehind stack name c := by
  rcases h with rfl | rfl
  · simp [step, hc]
  · rfl

theorem final?_name {label : String} (h : IsName label) (stack : List OpenElement) :
    final? step ⟨.bracket, stack⟩ label.toList = some ⟨.opening label.toList, stack⟩ := by
  obtain ⟨hne, hchars⟩ := h
  obtain ⟨c, cs, hcs⟩ := List.exists_cons_of_ne_nil hne
  rw [hcs] at hchars ⊢
  obtain ⟨hc, hrest⟩ := List.forall_mem_cons.1 hchars
  have hslash : c ≠ '/' := by
    rintro rfl
    exact absurd hc (by decide)
  have hfirst : step ⟨.bracket, stack⟩ c = some ⟨.opening [c], stack⟩ := by
    simp [step, hslash, hc]
  rw [final?_cons_of_eq hfirst]
  exact final?_of_collects (fun name => Scan.mk (.opening name) stack)
    (fun read d hd => by simp [step, hd]) hrest [c]

/-- **An attribute** ends at its second quote. -/
theorem final?_attribute {mode : Mode} (h : Behind name mode) (a : Attribute) :
    final? step ⟨mode, stack⟩ a.render.toList = some ⟨.quoted name, stack⟩ := by
  obtain ⟨hne, hchars⟩ := a.key.isName_label
  obtain ⟨k, ks, hks⟩ := List.exists_cons_of_ne_nil hne
  rw [hks] at hchars
  obtain ⟨hk, hrest⟩ := List.forall_mem_cons.1 hchars
  have hblank : step ⟨mode, stack⟩ ' ' = some ⟨.blank name, stack⟩ := by
    rw [step_behind h (by decide)]
    rfl
  have hfirst : step ⟨.blank name, stack⟩ k = some ⟨.key name, stack⟩ := if_pos hk
  have hkey : final? step ⟨.key name, stack⟩ ks = some ⟨.key name, stack⟩ :=
    final?_of_stays fun c hc => if_pos (hrest c hc)
  have hequals : step ⟨.key name, stack⟩ '=' = some ⟨.equals name, stack⟩ := by
    simp [step, IsNameChar]
  have hquote : step ⟨.equals name, stack⟩ '"' = some ⟨.value name, stack⟩ := rfl
  have hvalue : final? step ⟨.value name, stack⟩ (a.value.toList.flatMap (escapeChar .quoted)) =
      some ⟨.value name, stack⟩ := by
    refine final?_of_stays fun d hd => ?_
    obtain ⟨hopening, hclosing⟩ := not_bracket_of_mem_escaped hd
    simp [step, ne_quote_of_mem_escaped hd, hopening, hclosing]
  rw [Attribute.toList_render, hks, final?_cons_of_eq hblank, List.cons_append,
    final?_cons_of_eq hfirst, final?_append_of_eq hkey, final?_cons_of_eq hequals,
    final?_cons_of_eq hquote, final?_append_of_eq hvalue]
  rfl

theorem final?_attributes {mode : Mode} (h : Behind name mode) (as : List Attribute)
    (stack : List OpenElement) :
    ∃ mode', Behind name mode' ∧
      final? step ⟨mode, stack⟩ (as.flatMap (·.render.toList)) = some ⟨mode', stack⟩ := by
  induction as generalizing mode with
  | nil => exact ⟨mode, h, rfl⟩
  | cons a as ih =>
    obtain ⟨mode', hbehind, hrest⟩ := ih (.inr rfl)
    refine ⟨mode', hbehind, ?_⟩
    rw [List.flatMap_cons, final?_append_of_eq (final?_attribute h a), hrest]

theorem final?_tagText_append {label : String} (h : IsName label) (as : List Attribute) {c : Char}
    (hc : ¬ IsNameChar c) (cs : List Char) :
    final? step ⟨.between, stack⟩ ('<' :: (tagText label as).toList ++ c :: cs) =
      (readBehind stack label.toList c).bind fun t => final? step t cs := by
  have hbracket : step ⟨.between, stack⟩ '<' = some ⟨.bracket, stack⟩ := rfl
  obtain ⟨mode, hbehind, hattributes⟩ := final?_attributes (.inl rfl) as stack
  rw [List.cons_append, final?_cons_of_eq hbracket, toList_tagText, List.append_assoc,
    final?_append_of_eq (final?_name h stack), final?_append_of_eq hattributes, final?_cons,
    step_behind hbehind hc]

/-- **An opening tag** opens an element. -/
theorem final?_openingTag {label : String} (h : IsName label) (as : List Attribute) :
    final? step ⟨.between, stack⟩ (openingTag label as).toList =
      some { stack := { name := label } :: stack } := by
  rw [toList_openingTag, final?_tagText_append h as (by decide)]
  simp [readBehind]

/-- **A tag that closes itself** is an element. -/
theorem final?_selfClosingTag {label : String} (h : IsName label) (as : List Attribute) :
    final? step ⟨.between, stack⟩ (selfClosingTag label as).toList = some (complete stack) := by
  rw [toList_selfClosingTag, final?_tagText_append h as (by decide)]
  rfl

/-- **A closing tag** closes the innermost element. -/
theorem final?_closingTag {e : OpenElement} (hname : IsName e.name) (hfilled : e.isFilled = true) :
    final? step ⟨.between, e :: stack⟩ (closingTag e.name).toList = some (complete stack) := by
  have hcollect : final? step ⟨.closing [], e :: stack⟩ e.name.toList =
      some ⟨.closing e.name.toList, e :: stack⟩ :=
    final?_of_collects (fun name => Scan.mk (.closing name) (e :: stack))
      (fun read d hd => by simp [step, hd]) hname.2 []
  have hend : step ⟨.closing e.name.toList, e :: stack⟩ '>' = some (complete stack) := by
    simp [step, IsNameChar, close, hfilled]
  have hbracket : step ⟨.between, e :: stack⟩ '<' = some ⟨.bracket, e :: stack⟩ := rfl
  have hslash : step ⟨.bracket, e :: stack⟩ '/' = some ⟨.closing [], e :: stack⟩ := rfl
  rw [toList_closingTag, final?_cons_of_eq hbracket, final?_cons_of_eq hslash,
    final?_append_of_eq hcollect, final?_cons_of_eq hend, final?_nil]

/-- **A text** fills the innermost element. -/
theorem final?_text {e : OpenElement} {text : List Char} (hne : text ≠ [])
    (h : ∀ c ∈ text, c ≠ '<' ∧ c ≠ '>') :
    final? step ⟨.between, e :: stack⟩ text =
      some { stack := { e with hasText := true } :: stack } := by
  have hchar : ∀ (e : OpenElement), ∀ c ∈ text,
      step ⟨.between, e :: stack⟩ c = some ⟨.between, { e with hasText := true } :: stack⟩ := by
    intro e c hc
    simp [step, h c hc, readText]
  obtain ⟨c, cs, rfl⟩ := List.exists_cons_of_ne_nil hne
  rw [final?_cons_of_eq (hchar e c List.mem_cons_self)]
  exact final?_of_stays fun d hd => hchar _ d (List.mem_cons_of_mem _ hd)

end Scan

/-! ### Elements -/

namespace Element

/-- No text of an element is empty, and no group is, except for traces and results. -/
inductive Filled : Element → Prop where
  /-- Nothing is asked of an element without content. -/
  | leaf {tag : LeafTag} {attributes : List Attribute} : Filled (.leaf tag attributes)
  /-- The text is not empty. -/
  | text {tag : TextTag} {content : String} (ne : content ≠ "") : Filled (.text tag content)
  /-- The group is not empty, unless it may be, and nor are its children. -/
  | group {tag : GroupTag} {attributes : List Attribute} {children : List Element}
      (ne : children = [] → tag = .trace ∨ tag = .results)
      (all : ∀ e ∈ children, Filled e) : Filled (.group tag attributes children)

theorem render_group (tag : GroupTag) (attributes : List Attribute) (children : List Element) :
    (group tag attributes children).render =
      openingTag tag.label attributes ++ lineSeparator ++ lines children ++
        closingTag tag.label := by
  have hline := line_group tag attributes children
  rw [line, ← String.append_assoc] at hline
  exact String.append_left_inj _ |>.1 hline

theorem escape_eq_empty_iff {place : Place} {s : String} : escape place s = "" ↔ s = "" := by
  have hempty : escape place "" = "" := rfl
  refine ⟨fun h => ?_, fun h => h ▸ hempty⟩
  rwa [← hempty, escape_inj] at h

open Scan Run

theorem isFilled_text (tag : TextTag) :
    OpenElement.isFilled { name := tag.label, hasText := true } = true := by
  cases tag <;> decide

theorem isFilled_group {tag : GroupTag} {children : List Element}
    (h : children = [] → tag = .trace ∨ tag = .results) (hasText : Bool) :
    OpenElement.isFilled { name := tag.label, hasText, children := children.length } = true := by
  cases children with
  | nil => rcases h rfl with rfl | rfl <;> rfl
  | cons e es =>
    have htext : tag.label ∉ OpenElement.textNames := by cases tag <;> decide
    simp [OpenElement.isFilled, htext]

theorem final?_lines {es : List Element}
    (ih : ∀ e ∈ es, ∀ stack, final? step ⟨.between, stack⟩ e.render.toList = some (complete stack))
    {e : OpenElement} (htext : e.hasText = true) (stack : List OpenElement) :
    final? step ⟨.between, e :: stack⟩ (lines es).toList =
      some { stack := { e with children := e.children + es.length } :: stack } := by
  induction es generalizing e with
  | nil => rfl
  | cons f es ihs =>
    obtain ⟨hf, hes⟩ := List.forall_mem_cons.1 ih
    have hbreak : final? step (complete (e :: stack)) lineSeparator.toList =
        some (complete (e :: stack)) := by
      simp [complete, lineSeparator, final?_cons, step, readText, htext]
    have hrest := ihs hes (e := { e with children := e.children + 1 }) htext
    rw [lines_cons, line, String.toList_append, String.toList_append, List.append_assoc,
      final?_append_of_eq (hf _), final?_append_of_eq hbreak, complete, hrest, List.length_cons,
      Nat.add_assoc, Nat.add_comm 1]

/-- **An element is read as one child**, whatever is open. -/
theorem Filled.final?_render {e : Element} (h : e.Filled) (stack : List OpenElement) :
    final? step ⟨.between, stack⟩ e.render.toList = some (complete stack) := by
  induction e generalizing stack with
  | leaf tag attributes => exact final?_selfClosingTag tag.isName_label attributes
  | text tag content =>
    cases h with
    | text ne =>
      have hcontent : final? step ⟨.between, { name := tag.label } :: stack⟩
          (escape .content content).toList =
          some { stack := { name := tag.label, hasText := true } :: stack } := by
        refine final?_text (fun hnil => ne ?_) fun d hd => ?_
        · exact escape_eq_empty_iff.1 (String.toList_eq_nil_iff.1 hnil)
        · rw [toList_escape] at hd
          exact not_bracket_of_mem_escaped hd
      rw [render, String.toList_append, String.toList_append, List.append_assoc,
        final?_append_of_eq (final?_openingTag tag.isName_label []), final?_append_of_eq hcontent]
      exact final?_closingTag (e := { name := tag.label, hasText := true }) tag.isName_label
        (isFilled_text tag)
  | group tag attributes children ih =>
    cases h with
    | group ne all =>
      -- the line break behind the opening tag is text already, before any child is read
      have hbreak : final? step ⟨.between, { name := tag.label } :: stack⟩ lineSeparator.toList =
          some { stack := { name := tag.label, hasText := true } :: stack } :=
        final?_text (by simp [lineSeparator]) (by simp [lineSeparator])
      have hchildren := final?_lines (fun e he stack => ih e he (all e he) stack)
        (e := { name := tag.label, hasText := true }) rfl stack
      rw [render_group, String.toList_append, String.toList_append, String.toList_append,
        List.append_assoc, List.append_assoc,
        final?_append_of_eq (final?_openingTag tag.isName_label attributes),
        final?_append_of_eq hbreak, final?_append_of_eq hchildren]
      refine final?_closingTag (e := { name := tag.label, hasText := true, children := _ })
        tag.isName_label ?_
      rw [Nat.zero_add]
      exact isFilled_group ne true

/-- **A filled element is well nested.** -/
theorem Filled.wellNested_render {e : Element} (h : e.Filled) : WellNested e.render :=
  h.final?_render []

end Element

end Markup

end DiagnosticReport
