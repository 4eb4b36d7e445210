import DiagnosticReport.Proofs.Markup.Escaping
import DiagnosticReport.Proofs.Markup.Lines

/-!
# Markup can be read in one way only

Texts and attribute values may hold line breaks, quotes and whatever looks like a tag, and the
children of a group follow each other without a count. Still no two elements are written alike,
and no element is written as the beginning of another one (`Element.line_append_inj`): wherever an
element starts, what stands there says where it ends.

The reason is the same at every place. Each piece (a name, an attribute value, a text) is made of
characters of one kind, and a character of another kind follows it (`append_cons_inj`): names end
at a blank, slash or bracket, values at a quote, texts at a bracket. Where a group continues with
a child or ends, the character after the bracket tells which.
-/

namespace DiagnosticReport

namespace Markup

/-- **A piece ends where its kind of character ends.** -/
theorem append_cons_inj {α : Type} {p : α → Prop} {xs ys : List α} {c d : α} {r s : List α}
    (hxs : ∀ a ∈ xs, p a) (hys : ∀ a ∈ ys, p a) (hc : ¬ p c) (hd : ¬ p d)
    (h : xs ++ c :: r = ys ++ d :: s) : xs = ys ∧ c :: r = d :: s := by
  induction xs generalizing ys with
  | nil =>
    cases ys with
    | nil => exact ⟨rfl, h⟩
    | cons y ys =>
      obtain ⟨rfl, -⟩ := List.cons.inj h
      exact absurd (hys _ List.mem_cons_self) hc
  | cons x xs ih =>
    cases ys with
    | nil =>
      obtain ⟨rfl, -⟩ := List.cons.inj h
      exact absurd (hxs _ List.mem_cons_self) hd
    | cons y ys =>
      obtain ⟨rfl, htail⟩ := List.cons.inj h
      obtain ⟨rfl, hrest⟩ := ih (fun a ha => hxs a (List.mem_cons_of_mem _ ha))
        (fun a ha => hys a (List.mem_cons_of_mem _ ha)) htail
      exact ⟨rfl, hrest⟩

/-! ### Names -/

/-- A character that names are made of. -/
def IsNameChar (c : Char) : Prop :=
  c.isLower = true ∨ c = '-'

instance : DecidablePred IsNameChar := fun c =>
  inferInstanceAs (Decidable (c.isLower = true ∨ c = '-'))

/-- A name is not empty and is made of characters of names. -/
def IsName (s : String) : Prop :=
  s.toList ≠ [] ∧ ∀ c ∈ s.toList, IsNameChar c

instance : DecidablePred IsName := fun s =>
  @instDecidableAnd _ _ (inferInstanceAs (Decidable (s.toList ≠ [])))
    (List.decidableBAll IsNameChar s.toList)

theorem IsName.not_mem {s : String} (h : IsName s) {c : Char} (hc : ¬ IsNameChar c) :
    c ∉ s.toList :=
  fun hmem => hc (h.2 c hmem)

theorem Key.isName_label (key : Key) : IsName key.label := by
  cases key <;> decide

theorem Key.label_inj {key key' : Key} : key.label = key'.label ↔ key = key' := by
  cases key <;> cases key' <;> decide

theorem LeafTag.isName_label (tag : LeafTag) : IsName tag.label := by
  cases tag <;> decide

theorem LeafTag.label_inj {tag tag' : LeafTag} : tag.label = tag'.label ↔ tag = tag' := by
  cases tag <;> cases tag' <;> decide

theorem TextTag.isName_label (tag : TextTag) : IsName tag.label := by
  cases tag <;> decide

theorem TextTag.label_inj {tag tag' : TextTag} : tag.label = tag'.label ↔ tag = tag' := by
  cases tag <;> cases tag' <;> decide

theorem GroupTag.isName_label (tag : GroupTag) : IsName tag.label := by
  cases tag <;> decide

theorem GroupTag.label_inj {tag tag' : GroupTag} : tag.label = tag'.label ↔ tag = tag' := by
  cases tag <;> cases tag' <;> decide

theorem TextTag.label_ne_label (tag : TextTag) (tag' : GroupTag) : tag.label ≠ tag'.label := by
  cases tag <;> cases tag' <;> decide

/-! ### Tags -/

theorem Attribute.ext {a a' : Attribute} (hkey : a.key = a'.key) (hvalue : a.value = a'.value) :
    a = a' := by
  cases a
  cases a'
  simp_all

theorem Attribute.toList_render (a : Attribute) :
    a.render.toList = ' ' :: (a.key.label.toList ++
      '=' :: '"' :: (a.value.toList.flatMap (escapeChar .quoted) ++ ['"'])) := by
  simp [Attribute.render]

theorem Attribute.render_append_inj {a a' : Attribute} {r r' : List Char}
    (h : a.render.toList ++ r = a'.render.toList ++ r') : a = a' ∧ r = r' := by
  simp only [toList_render, List.cons_append, List.append_assoc, List.nil_append,
    List.cons.injEq, true_and] at h
  obtain ⟨hkey, hrest⟩ := append_cons_inj a.key.isName_label.2 a'.key.isName_label.2
    (by decide) (by decide) h
  simp only [List.cons.injEq, true_and] at hrest
  obtain ⟨hvalue, hend⟩ := append_cons_inj (fun _ => ne_quote_of_mem_escaped)
    (fun _ => ne_quote_of_mem_escaped) (by simp) (by simp) hrest
  have hkeys : a.key = a'.key := Key.label_inj.1 (String.toList_inj.1 hkey)
  have hvalues : a.value = a'.value :=
    escape_inj.1 (String.toList_inj.1 (by simpa using hvalue))
  exact ⟨Attribute.ext hkeys hvalues, (List.cons.inj hend).2⟩

/-- A character that ends the inside of a tag. -/
def IsTagEnd (c : Char) : Prop :=
  c = '/' ∨ c = '>'

theorem attributes_append_inj {as as' : List Attribute} {c c' : Char} {r r' : List Char}
    (hc : IsTagEnd c) (hc' : IsTagEnd c')
    (h : as.flatMap (·.render.toList) ++ c :: r = as'.flatMap (·.render.toList) ++ c' :: r') :
    as = as' ∧ c :: r = c' :: r' := by
  have hblank : ∀ {d : Char}, IsTagEnd d → d ≠ ' ' := by
    rintro d (rfl | rfl) <;> decide
  induction as generalizing as' with
  | nil =>
    cases as' with
    | nil => exact ⟨rfl, h⟩
    | cons a' as' =>
      simp only [List.flatMap_nil, List.nil_append, List.flatMap_cons, Attribute.toList_render,
        List.cons_append, List.cons.injEq] at h
      exact absurd h.1 (hblank hc)
  | cons a as ih =>
    cases as' with
    | nil =>
      simp only [List.flatMap_nil, List.nil_append, List.flatMap_cons, Attribute.toList_render,
        List.cons_append, List.cons.injEq] at h
      exact absurd h.1.symm (hblank hc')
    | cons a' as' =>
      simp only [List.flatMap_cons, List.append_assoc] at h
      obtain ⟨rfl, htail⟩ := Attribute.render_append_inj h
      obtain ⟨rfl, hrest⟩ := ih htail
      exact ⟨rfl, hrest⟩

theorem toList_tagText (label : String) (attributes : List Attribute) :
    (tagText label attributes).toList =
      label.toList ++ attributes.flatMap (·.render.toList) := by
  simp [tagText, List.flatMap_map]

theorem toList_openingTag (label : String) (attributes : List Attribute) :
    (openingTag label attributes).toList =
      '<' :: (tagText label attributes).toList ++ ['>'] := by
  simp [openingTag]

theorem toList_selfClosingTag (label : String) (attributes : List Attribute) :
    (selfClosingTag label attributes).toList =
      '<' :: (tagText label attributes).toList ++ ['/', '>'] := by
  simp [selfClosingTag]

theorem toList_closingTag (label : String) :
    (closingTag label).toList = '<' :: '/' :: (label.toList ++ ['>']) := by
  simp [closingTag]

theorem tagText_append_inj {label label' : String} {as as' : List Attribute} {c c' : Char}
    {r r' : List Char} (hlabel : IsName label) (hlabel' : IsName label')
    (hc : IsTagEnd c) (hc' : IsTagEnd c')
    (h : (tagText label as).toList ++ c :: r = (tagText label' as').toList ++ c' :: r') :
    label = label' ∧ as = as' ∧ c :: r = c' :: r' := by
  have hstop : ∀ (as : List Attribute) (c : Char) (r : List Char), IsTagEnd c →
      ∃ d s, as.flatMap (·.render.toList) ++ c :: r = d :: s ∧ ¬ IsNameChar d := by
    intro as c r hc
    cases as with
    | nil => exact ⟨c, r, rfl, by rcases hc with rfl | rfl <;> decide⟩
    | cons a as =>
      rw [List.flatMap_cons, Attribute.toList_render]
      exact ⟨' ', _, rfl, by decide⟩
  obtain ⟨d, s, hd, hnd⟩ := hstop as c r hc
  obtain ⟨d', s', hd', hnd'⟩ := hstop as' c' r' hc'
  rw [toList_tagText, toList_tagText, List.append_assoc, List.append_assoc, hd, hd'] at h
  obtain ⟨hname, hrest⟩ := append_cons_inj hlabel.2 hlabel'.2 hnd hnd' h
  rw [← hd, ← hd'] at hrest
  exact ⟨String.toList_inj.1 hname, attributes_append_inj hc hc' hrest⟩

/-! ### Elements -/

namespace Element

/-- The name of an element. -/
def label : Element → String
  | .leaf tag _ => tag.label
  | .text tag _ => tag.label
  | .group tag _ _ => tag.label

/-- The attributes of an element. -/
def attributes : Element → List Attribute
  | .leaf _ attributes => attributes
  | .text _ _ => []
  | .group _ attributes _ => attributes

/-- What follows the name and the attributes of an element, up to the line break behind it. -/
def remainder : Element → List Char
  | .leaf _ _ => "/>\n".toList
  | .text tag content =>
    '>' :: (content.toList.flatMap (escapeChar .content) ++
      '<' :: '/' :: (tag.label.toList ++ ">\n".toList))
  | .group tag _ children =>
    '>' :: '\n' :: ((lines children).toList ++ '<' :: '/' :: (tag.label.toList ++ ">\n".toList))

theorem isName_label (e : Element) : IsName e.label := by
  cases e with
  | leaf tag => exact tag.isName_label
  | text tag => exact tag.isName_label
  | group tag => exact tag.isName_label

theorem toList_line (e : Element) :
    e.line.toList = '<' :: ((tagText e.label e.attributes).toList ++ e.remainder) := by
  cases e with
  | leaf => simp [selfClosingTag, lineSeparator, label, attributes, remainder]
  | text =>
    simp [openingTag, closingTag, lineSeparator, label, attributes, remainder]
  | group =>
    simp [line_group, openingTag, closingTag, lineSeparator, label, attributes, remainder]

theorem exists_remainder_eq (e : Element) : ∃ c r, e.remainder = c :: r ∧ IsTagEnd c := by
  cases e with
  | leaf => exact ⟨'/', _, rfl, .inl rfl⟩
  | text => exact ⟨'>', _, rfl, .inr rfl⟩
  | group => exact ⟨'>', _, rfl, .inr rfl⟩

/-- The opening tag of an element ends where its name and attributes end. -/
theorem remainder_append_eq {e e' : Element} {r r' : List Char}
    (h : e.line.toList ++ r = e'.line.toList ++ r') :
    e.label = e'.label ∧ e.attributes = e'.attributes ∧ e.remainder ++ r = e'.remainder ++ r' := by
  obtain ⟨c, s, hs, hc⟩ := e.exists_remainder_eq
  obtain ⟨c', s', hs', hc'⟩ := e'.exists_remainder_eq
  rw [toList_line, toList_line, hs, hs'] at h
  simp only [List.cons_append, List.append_assoc, List.cons.injEq, true_and] at h
  rw [hs, hs']
  exact tagText_append_inj e.isName_label e'.isName_label hc hc' h

/-- After the bracket of a closing tag stands a slash, and never after that of an element. -/
theorem line_append_ne_closing (e : Element) (r s : List Char) :
    e.line.toList ++ r ≠ '<' :: '/' :: s := by
  intro h
  rw [toList_line, toList_tagText] at h
  obtain ⟨hne, hname⟩ := e.isName_label
  -- the first character of the name would be the slash
  obtain ⟨c, cs, hcs⟩ := List.exists_cons_of_ne_nil hne
  have hc : IsNameChar c := hname c (by rw [hcs]; exact List.mem_cons_self)
  simp only [hcs, List.cons_append, List.cons.injEq, true_and] at h
  obtain ⟨rfl, -⟩ := h
  exact absurd hc (by decide)

/-- The children of a group end at its closing tag, if each of them can be read in one way. -/
theorem lines_append_inj {es es' : List Element} {s s' : List Char}
    (ih : ∀ e ∈ es, ∀ (e' : Element) (r r' : List Char),
      e.line.toList ++ r = e'.line.toList ++ r' → e = e' ∧ r = r')
    (h : (lines es).toList ++ '<' :: '/' :: s = (lines es').toList ++ '<' :: '/' :: s') :
    es = es' ∧ s = s' := by
  induction es generalizing es' with
  | nil =>
    cases es' with
    | nil => simpa using h
    | cons e' es' =>
      simp only [lines_nil, lines_cons, String.toList_append, List.append_assoc] at h
      exact absurd h.symm (e'.line_append_ne_closing _ _)
  | cons e es ihs =>
    cases es' with
    | nil =>
      simp only [lines_nil, lines_cons, String.toList_append, List.append_assoc] at h
      exact absurd h (e.line_append_ne_closing _ _)
    | cons e' es' =>
      simp only [lines_cons, String.toList_append, List.append_assoc] at h
      obtain ⟨rfl, htail⟩ := ih e List.mem_cons_self e' _ _ h
      obtain ⟨rfl, hs⟩ := ihs (fun e he => ih e (List.mem_cons_of_mem _ he)) htail
      exact ⟨rfl, hs⟩

/-- **Where an element starts, what stands there says which one it is and where it ends.** -/
theorem line_append_inj (e e' : Element) (r r' : List Char)
    (h : e.line.toList ++ r = e'.line.toList ++ r') : e = e' ∧ r = r' := by
  induction e generalizing e' r r' with
  | leaf tag as =>
    obtain ⟨hlabel, has, h⟩ := remainder_append_eq h
    cases e' with
    | leaf tag' as' =>
      obtain rfl := LeafTag.label_inj.1 hlabel
      obtain rfl := has
      exact ⟨rfl, List.append_cancel_left h⟩
    | text => simp [remainder] at h
    | group => simp [remainder] at h
  | text tag content =>
    obtain ⟨hlabel, -, h⟩ := remainder_append_eq h
    cases e' with
    | leaf => simp [remainder] at h
    | text tag' content' =>
      obtain rfl := TextTag.label_inj.1 hlabel
      simp only [remainder, List.cons_append, List.append_assoc, List.cons.injEq, true_and] at h
      -- a content ends at the first bracket, for it holds none itself
      obtain ⟨hcontent, hend⟩ := append_cons_inj (fun _ hd => (not_bracket_of_mem_escaped hd).1)
        (fun _ hd => (not_bracket_of_mem_escaped hd).1) (by simp) (by simp) h
      obtain rfl : content = content' :=
        escape_inj.1 (String.toList_inj.1 (by simpa using hcontent))
      exact ⟨rfl, by simpa using hend⟩
    | group tag' => exact absurd hlabel (tag.label_ne_label tag')
  | group tag as children ih =>
    obtain ⟨hlabel, has, h⟩ := remainder_append_eq h
    cases e' with
    | leaf => simp [remainder] at h
    | text tag' => exact absurd hlabel.symm (tag'.label_ne_label tag)
    | group tag' as' children' =>
      obtain rfl := GroupTag.label_inj.1 hlabel
      obtain rfl := has
      simp only [remainder, List.cons_append, List.append_assoc, List.cons.injEq, true_and] at h
      obtain ⟨rfl, hend⟩ := lines_append_inj ih h
      exact ⟨rfl, by simpa using hend⟩

/-- **No two elements are written alike.** -/
theorem render_inj {e e' : Element} : e.render = e'.render ↔ e = e' := by
  refine ⟨fun h => ?_, fun h => h ▸ rfl⟩
  have hline : e.line.toList ++ [] = e'.line.toList ++ [] := by rw [line, line, h]
  exact (line_append_inj e e' [] [] hline).1

end Element

end Markup

end DiagnosticReport
