import DiagnosticReport.Proofs.Markup.Nesting

/-!
# Blank lines of markup

A text has a blank line where two line breaks follow each other. Markup has line breaks of its own,
but it never puts one next to another, nor at its start or its end: an element starts and ends with
a bracket, and so does every tag. So the blank lines of an element are those of the texts and
attribute values in it, and escaping neither adds any nor takes any away.

* `Text.hasBlankLine_append` : where two texts meet, a blank line needs a line break on both sides.
* `Markup.hasBlankLine_escape` : a text that is escaped has a blank line if and only if it has one.
* `Element.hasBlankLine_leaf`, `Element.hasBlankLine_text`, `Element.hasBlankLine_group` : the blank
  lines of an element, by the kind of the element.
-/

namespace DiagnosticReport

namespace Text

/-- Whether a text has two line breaks that follow each other. -/
def HasBlankLine (cs : List Char) : Prop :=
  ['\n', '\n'] <:+: cs

instance : DecidablePred HasBlankLine := fun cs =>
  inferInstanceAs (Decidable (['\n', '\n'] <:+: cs))

variable {cs ds front back : List Char}

@[simp] theorem not_hasBlankLine_nil : ¬ HasBlankLine [] := by
  decide

theorem hasBlankLine_cons {c : Char} :
    HasBlankLine (c :: cs) ↔ (c = '\n' ∧ cs.head? = some '\n') ∨ HasBlankLine cs := by
  rw [HasBlankLine, List.infix_cons_iff, List.cons_prefix_cons, eq_comm]
  refine or_congr_left (and_congr_right fun _ => ?_)
  cases cs with
  | nil => simp
  | cons d cs =>
    rw [List.cons_prefix_cons, List.head?_cons, Option.some_inj, eq_comm]
    simp

/-- **Where two texts meet.** -/
theorem hasBlankLine_append :
    HasBlankLine (cs ++ ds) ↔
      HasBlankLine cs ∨ HasBlankLine ds ∨ cs.getLast? = some '\n' ∧ ds.head? = some '\n' := by
  induction cs with
  | nil => simp
  | cons c cs ih =>
    rw [List.cons_append, hasBlankLine_cons, hasBlankLine_cons, ih]
    cases cs with
    | nil => simp [or_comm]
    | cons c' cs =>
      rw [List.getLast?_cons_cons, List.cons_append, List.head?_cons, List.head?_cons, or_assoc]

theorem hasBlankLine_append_of_head? (h : ds.head? ≠ some '\n') :
    HasBlankLine (cs ++ ds) ↔ HasBlankLine cs ∨ HasBlankLine ds := by
  simp [hasBlankLine_append, h]

theorem hasBlankLine_append_of_getLast? (h : cs.getLast? ≠ some '\n') :
    HasBlankLine (cs ++ ds) ↔ HasBlankLine cs ∨ HasBlankLine ds := by
  simp [hasBlankLine_append, h]

theorem not_hasBlankLine_of_not_mem (h : '\n' ∉ cs) : ¬ HasBlankLine cs :=
  fun hblank => h (hblank.subset List.mem_cons_self)

theorem hasBlankLine_append_of_not_mem (h : '\n' ∉ front) :
    HasBlankLine (front ++ cs) ↔ HasBlankLine cs := by
  rw [hasBlankLine_append_of_getLast? fun hlast => h (List.mem_of_getLast? hlast)]
  simp [not_hasBlankLine_of_not_mem h]

theorem hasBlankLine_between (hfront : '\n' ∉ front) (hback : '\n' ∉ back) :
    HasBlankLine (front ++ cs ++ back) ↔ HasBlankLine cs := by
  rw [hasBlankLine_append_of_head? fun hhead => hback (List.mem_of_head? hhead),
    hasBlankLine_append_of_not_mem hfront]
  simp [not_hasBlankLine_of_not_mem hback]

theorem hasBlankLine_flatMap {α : Type} {f : α → List Char} {xs : List α}
    (hne : ∀ x ∈ xs, f x ≠ []) (hhead : ∀ x ∈ xs, (f x).head? ≠ some '\n') :
    HasBlankLine (xs.flatMap f) ↔ ∃ x ∈ xs, HasBlankLine (f x) := by
  induction xs with
  | nil => simp
  | cons x xs ih =>
    obtain ⟨-, hne⟩ := List.forall_mem_cons.1 hne
    obtain ⟨-, hhead⟩ := List.forall_mem_cons.1 hhead
    -- what follows a piece starts as the next piece does, or is empty
    have hrest : (xs.flatMap f).head? ≠ some '\n' := by
      cases xs with
      | nil => simp
      | cons y ys =>
        obtain ⟨d, ds, hd⟩ := List.exists_cons_of_ne_nil (hne y List.mem_cons_self)
        have hy := hhead y List.mem_cons_self
        rw [List.flatMap_cons, hd, List.cons_append, List.head?_cons]
        rwa [hd, List.head?_cons] at hy
    rw [List.flatMap_cons, hasBlankLine_append_of_head? hrest, ih hne hhead]
    simp

end Text

namespace Markup

open Text

/-! ### Texts and tags -/

theorem escapeChar_ne_nil (place : Place) (c : Char) : escapeChar place c ≠ [] := by
  unfold escapeChar
  split_ifs <;> simp

theorem head?_flatMap_escapeChar (place : Place) (cs : List Char) :
    (cs.flatMap (escapeChar place)).head? = some '\n' ↔ cs.head? = some '\n' := by
  cases cs with
  | nil => simp
  | cons c cs =>
    by_cases hc : c = '\n'
    · subst hc
      rw [List.flatMap_cons, escapeChar_of_plain place (by decide)]
      simp
    · have hpiece : '\n' ∉ escapeChar place c := not_mem_escapeChar place (by decide) hc
      obtain ⟨d, ds, hd⟩ := List.exists_cons_of_ne_nil (escapeChar_ne_nil place c)
      rw [hd] at hpiece
      rw [List.flatMap_cons, hd]
      simp only [List.cons_append, List.head?_cons, Option.some_inj, hc, iff_false]
      rintro rfl
      exact hpiece List.mem_cons_self

/-- **Escaping leaves the blank lines as they are.** -/
theorem hasBlankLine_escape (place : Place) (cs : List Char) :
    HasBlankLine (cs.flatMap (escapeChar place)) ↔ HasBlankLine cs := by
  induction cs with
  | nil => simp
  | cons c cs ih =>
    rw [List.flatMap_cons, hasBlankLine_cons]
    -- a line break is written as it is, and nothing else is written with one
    by_cases hc : c = '\n'
    · subst hc
      rw [escapeChar_of_plain place (by decide), List.singleton_append, hasBlankLine_cons, ih,
        head?_flatMap_escapeChar]
    · rw [hasBlankLine_append_of_not_mem (not_mem_escapeChar place (by decide) hc), ih]
      simp [hc]

theorem Attribute.hasBlankLine_render (a : Attribute) :
    HasBlankLine a.render.toList ↔ HasBlankLine a.value.toList := by
  have hkey : '\n' ∉ a.key.label.toList := a.key.isName_label.not_mem (by decide)
  have hrender : a.render.toList = (' ' :: (a.key.label.toList ++ ['=', '"'])) ++
      a.value.toList.flatMap (escapeChar .quoted) ++ ['"'] := by
    simp [toList_render]
  rw [hrender, hasBlankLine_between (by simp [hkey]) (by simp), hasBlankLine_escape]

theorem hasBlankLine_tagText {label : String} (h : IsName label) (attributes : List Attribute) :
    HasBlankLine (tagText label attributes).toList ↔
      ∃ a ∈ attributes, HasBlankLine a.value.toList := by
  have hpieces : HasBlankLine (attributes.flatMap (·.render.toList)) ↔
      ∃ a ∈ attributes, HasBlankLine a.render.toList :=
    hasBlankLine_flatMap (by simp [Attribute.toList_render]) (by simp [Attribute.toList_render])
  rw [toList_tagText, hasBlankLine_append_of_not_mem (h.not_mem (by decide)), hpieces]
  simp only [Attribute.hasBlankLine_render]

/-! ### Elements -/

namespace Element

theorem head?_render (e : Element) : e.render.toList.head? = some '<' := by
  cases e with
  | leaf => simp [render, selfClosingTag]
  | text => simp [render, openingTag]
  | group => simp [render_group, openingTag]

theorem getLast?_render (e : Element) : e.render.toList.getLast? = some '>' := by
  have hbracket : ∃ front, e.render = front ++ ">" := by
    cases e with
    | leaf tag attributes => exact ⟨"<" ++ tagText tag.label attributes ++ "/", by
        simp [render, selfClosingTag, String.append_assoc]⟩
    | text tag content => exact ⟨openingTag tag.label [] ++ escape .content content ++
        ("</" ++ tag.label), by simp [render, closingTag, String.append_assoc]⟩
    | group tag attributes children => exact ⟨openingTag tag.label attributes ++ lineSeparator ++
        lines children ++ ("</" ++ tag.label), by
        simp [render_group, closingTag, String.append_assoc]⟩
  obtain ⟨front, hfront⟩ := hbracket
  rw [hfront, String.toList_append]
  exact List.getLast?_concat

theorem hasBlankLine_line (e : Element) :
    HasBlankLine e.line.toList ↔ HasBlankLine e.render.toList := by
  rw [line, String.toList_append, hasBlankLine_append_of_getLast? (by simp [getLast?_render])]
  simp [lineSeparator, hasBlankLine_cons]

theorem hasBlankLine_lines (es : List Element) :
    HasBlankLine (lines es).toList ↔ ∃ e ∈ es, HasBlankLine e.render.toList := by
  have hlines : (lines es).toList = es.flatMap (·.line.toList) := by
    simp [lines, List.flatMap_map]
  rw [hlines, hasBlankLine_flatMap]
  · simp only [hasBlankLine_line]
  · simp [toList_line]
  · simp [toList_line]

theorem hasBlankLine_leaf (tag : LeafTag) (attributes : List Attribute) :
    HasBlankLine (leaf tag attributes).render.toList ↔
      ∃ a ∈ attributes, HasBlankLine a.value.toList := by
  rw [← hasBlankLine_tagText tag.isName_label, render, selfClosingTag, String.toList_append,
    String.toList_append, hasBlankLine_between (by decide) (by decide)]

theorem hasBlankLine_text (tag : TextTag) (content : String) :
    HasBlankLine (text tag content).render.toList ↔ HasBlankLine content.toList := by
  have hlabel : '\n' ∉ tag.label.toList := tag.isName_label.not_mem (by decide)
  rw [render, String.toList_append, String.toList_append,
    hasBlankLine_between (by simp [openingTag, tagText, hlabel]) (by simp [closingTag, hlabel]),
    toList_escape, hasBlankLine_escape]

/-- **The blank lines of a group** are those of its attribute values and of its children. -/
theorem hasBlankLine_group (tag : GroupTag) (attributes : List Attribute)
    (children : List Element) :
    HasBlankLine (group tag attributes children).render.toList ↔
      (∃ a ∈ attributes, HasBlankLine a.value.toList) ∨
        ∃ e ∈ children, HasBlankLine e.render.toList := by
  have hlabel : '\n' ∉ tag.label.toList := tag.isName_label.not_mem (by decide)
  have hopening : HasBlankLine (openingTag tag.label attributes).toList ↔
      ∃ a ∈ attributes, HasBlankLine a.value.toList := by
    rw [openingTag, String.toList_append, String.toList_append,
      hasBlankLine_between (by decide) (by decide), hasBlankLine_tagText tag.isName_label]
  have hbracket : (openingTag tag.label attributes).toList.getLast? = some '>' := by
    rw [openingTag, String.toList_append]
    exact List.getLast?_concat
  have hclosing : ¬ HasBlankLine (closingTag tag.label).toList :=
    not_hasBlankLine_of_not_mem (by simp [closingTag, hlabel])
  have hlines : (lines children).toList.head? ≠ some '\n' := by
    cases children <;> simp [toList_line]
  -- on either side of the line break behind the opening tag stands a bracket
  rw [render_group, String.toList_append, String.toList_append, String.toList_append,
    hasBlankLine_append_of_head? (by simp [closingTag]), hasBlankLine_append_of_head? hlines,
    hasBlankLine_append_of_getLast? (by simp [hbracket]), hopening, hasBlankLine_lines]
  simp [hclosing, lineSeparator, hasBlankLine_cons]

end Element

end Markup

end DiagnosticReport
