import DiagnosticReport.Proofs.Markup.Nesting
import DiagnosticReport.Proofs.Xml.Reader
import Mathlib.Data.List.Nodup

/-!
# Elements that are read as XML

What is written for an element is read as the tree of that element (`Reader.final?_render`): texts
come back as they were, and in the values of attributes white space comes back as blanks. Both are
read with line breaks at the ends of lines only; what the reader makes of other line ends is left to
`normalizeLines`.
-/

namespace DiagnosticReport

namespace Xml

open Markup

/-! ### The trees of elements -/

/-- The value of an attribute as it is read. -/
def attributeText (s : String) : String :=
  s.map normalizeSpace

theorem attributeText_eq (s : String) :
    "" ++ String.ofList (s.toList.map normalizeSpace) = attributeText s :=
  String.toList_inj.1 (by simp [attributeText])

/-- An attribute as it is read. -/
def attributeOf (a : Attribute) : String × String :=
  (a.key.label, attributeText a.value)

/-- A text between two tags; there is none if it is empty. -/
def textNodes (s : String) : List Node :=
  if s = "" then [] else [.text s]

namespace Node

mutual

/-- The tree of an element. The children of a group stand on lines of their own. -/
def ofElement : Element → Node
  | .leaf tag attributes => .element tag.label (attributes.map attributeOf) []
  | .text tag content => .element tag.label [] (textNodes content)
  | .group tag attributes children =>
    .element tag.label (attributes.map attributeOf) (.text "\n" :: ofLines children)

/-- The trees of elements on lines of their own. -/
def ofLines : List Element → List Node
  | [] => []
  | e :: es => ofElement e :: .text "\n" :: ofLines es

end

end Node

/-- No attribute of an element is given twice, and none of the elements in it. -/
inductive Readable : Element → Prop where
  /-- An element without content. -/
  | leaf {tag : LeafTag} {attributes : List Attribute}
      (keys : (attributes.map Attribute.key).Nodup) : Readable (.leaf tag attributes)
  /-- An element with a text has no attributes. -/
  | text {tag : TextTag} {content : String} : Readable (.text tag content)
  /-- A group. -/
  | group {tag : GroupTag} {attributes : List Attribute} {children : List Element}
      (keys : (attributes.map Attribute.key).Nodup) (all : ∀ e ∈ children, Readable e) :
      Readable (.group tag attributes children)

/-! ### Names -/

/-- A name (`Name`). -/
def IsName (s : String) : Prop :=
  ∃ c cs, s.toList = c :: cs ∧ isNameStart c = true ∧ ∀ d ∈ cs, isNamePart d = true

theorem isName_of_check {s : String} (h : (match s.toList with
    | [] => false
    | c :: cs => isNameStart c && cs.all isNamePart) = true) : IsName s := by
  split at h
  · cases h
  · next c cs hs =>
    rw [Bool.and_eq_true, List.all_eq_true] at h
    exact ⟨c, cs, hs, h⟩

theorem isName_key (key : Key) : IsName key.label := by
  cases key <;> exact isName_of_check (by decide)

theorem isName_leafTag (tag : LeafTag) : IsName tag.label := by
  cases tag <;> exact isName_of_check (by decide)

theorem isName_textTag (tag : TextTag) : IsName tag.label := by
  cases tag <;> exact isName_of_check (by decide)

theorem isName_groupTag (tag : GroupTag) : IsName tag.label := by
  cases tag <;> exact isName_of_check (by decide)

namespace Reader

open Run

variable {stack : List OpenElement} {o : OpenElement} {head : Head}

/-! ### Texts -/

/-- **A character of a text** is read as what it was. -/
theorem final?_escapeChar_content (o : OpenElement) (stack : List OpenElement) (brackets : Nat)
    (c : Char) :
    ∃ brackets', final? step ⟨.content brackets, o :: stack⟩ (escapeChar .content c) =
      some ⟨.content brackets', { o with content := addChar c o.content } :: stack⟩ := by
  unfold escapeChar
  split_ifs with hamp hlt hgt hquote
  · subst hamp
    exact ⟨0, rfl⟩
  · subst hlt
    exact ⟨0, rfl⟩
  · subst hgt
    exact ⟨0, rfl⟩
  · exact absurd hquote.2 (by decide)
  · refine ⟨if c = ']' then min 2 (brackets + 1) else 0, ?_⟩
    rw [final?_cons, step]
    simp [hamp, hlt, hgt, readText]

theorem final?_escape_content (o : OpenElement) (stack : List OpenElement) (brackets : Nat)
    (cs : List Char) :
    ∃ brackets', final? step ⟨.content brackets, o :: stack⟩ (cs.flatMap (escapeChar .content)) =
      some ⟨.content brackets',
        { o with content := cs.foldl (fun nodes c => addChar c nodes) o.content } :: stack⟩ := by
  induction cs generalizing brackets o with
  | nil => exact ⟨brackets, rfl⟩
  | cons c cs ih =>
    obtain ⟨brackets₁, hfirst⟩ := final?_escapeChar_content o stack brackets c
    obtain ⟨brackets₂, hrest⟩ := ih { o with content := addChar c o.content } brackets₁
    refine ⟨brackets₂, ?_⟩
    rw [List.flatMap_cons, final?_append_of_eq hfirst, hrest]
    rfl

theorem foldl_addChar_text (cs : List Char) (s : String) (nodes : List Node) :
    cs.foldl (fun nodes c => addChar c nodes) (.text s :: nodes) =
      .text (s ++ String.ofList cs) :: nodes := by
  induction cs generalizing s with
  | nil => simp
  | cons c cs ih =>
    rw [List.foldl_cons, addChar, ih]
    congr 2
    apply String.toList_inj.1
    simp

theorem foldl_addChar_nil (s : String) :
    s.toList.foldl (fun nodes c => addChar c nodes) [] = textNodes s := by
  unfold textNodes
  split_ifs with hempty
  · rw [hempty]
    rfl
  · obtain ⟨c, cs, hcs⟩ := List.exists_cons_of_ne_nil (mt String.toList_eq_nil_iff.1 hempty)
    have hs : String.singleton c ++ String.ofList cs = s := String.toList_inj.1 (by simp [hcs])
    rw [hcs, List.foldl_cons, addChar, foldl_addChar_text, hs]
    intro t nodes h
    cases h

/-! ### Values -/

/-- **A character of a value** is read as what it was, white space as a blank. -/
theorem final?_escapeChar_quoted {v : Value} (hv : v.quote = '"') (c : Char) :
    final? step ⟨.value v, stack⟩ (escapeChar .quoted c) =
      some ⟨.value { v with text := v.text.push (normalizeSpace c) }, stack⟩ := by
  obtain ⟨head, key, quote, text⟩ := v
  obtain rfl : quote = '"' := hv
  unfold escapeChar
  split_ifs with hamp hlt hgt hquote
  · subst hamp
    rfl
  · subst hlt
    rfl
  · subst hgt
    rfl
  · obtain ⟨rfl, -⟩ := hquote
    rfl
  · have hc : c ≠ '"' := fun h => hquote ⟨h, rfl⟩
    rw [final?_cons, step]
    simp [hamp, hlt, hc]

theorem final?_escape_quoted (v : Value) (hv : v.quote = '"') (cs : List Char)
    (stack : List OpenElement) :
    final? step ⟨.value v, stack⟩ (cs.flatMap (escapeChar .quoted)) =
      some ⟨.value { v with text := v.text ++ String.ofList (cs.map normalizeSpace) }, stack⟩ := by
  induction cs generalizing v with
  | nil => simp
  | cons c cs ih =>
    have hrest := ih { v with text := v.text.push (normalizeSpace c) } hv
    have htext : v.text.push (normalizeSpace c) ++ String.ofList (cs.map normalizeSpace) =
        v.text ++ String.ofList ((c :: cs).map normalizeSpace) :=
      String.toList_inj.1 (by simp)
    rw [List.flatMap_cons, final?_append_of_eq (final?_escapeChar_quoted hv c), hrest, ← htext]

/-! ### Tags -/

/-- A reader that has read the name and some attributes of an opening tag. -/
def Behind (head : Head) (mode : Mode) : Prop :=
  (∃ name, mode = .opening name ∧ head = { name := String.ofList name }) ∨ mode = .quoted head

theorem step_behind {mode : Mode} (h : Behind head mode) {c : Char} (hc : isNamePart c = false) :
    step ⟨mode, stack⟩ c = readBehind head stack c := by
  rcases h with ⟨name, rfl, rfl⟩ | rfl
  · simp [step, hc]
  · rfl

/-- **An attribute** ends at its second quote. -/
theorem final?_attribute {mode : Mode} (h : Behind head mode) {a : Attribute}
    (hkey : a.key.label ∉ head.attributes.map Prod.fst) :
    final? step ⟨mode, stack⟩ a.render.toList =
      some ⟨.quoted { head with attributes := head.attributes ++ [attributeOf a] }, stack⟩ := by
  obtain ⟨k, ks, hks, hk, hrest⟩ := isName_key a.key
  have hlabel : String.ofList (k :: ks) = a.key.label := by rw [← hks, String.ofList_toList]
  have hblank : step ⟨mode, stack⟩ ' ' = some ⟨.blank head, stack⟩ := step_behind h (by decide)
  have hfirst : step ⟨.blank head, stack⟩ k = some ⟨.key head [k], stack⟩ := if_pos hk
  have hcollect : final? step ⟨.key head [k], stack⟩ ks = some ⟨.key head (k :: ks), stack⟩ :=
    final?_of_collects (fun name => Reader.mk (.key head name) stack)
      (fun read c hc => if_pos hc) hrest [k]
  have hequals : step ⟨.key head (k :: ks), stack⟩ '=' =
      some ⟨.equals head a.key.label, stack⟩ := by
    rw [← hlabel]
    rfl
  have hquote : step ⟨.equals head a.key.label, stack⟩ '"' =
      some ⟨.value { head, key := a.key.label, quote := '"' }, stack⟩ := by
    have hspace : isSpace '"' = false := by decide
    simp [step, hspace, hkey]
  have hvalue := final?_escape_quoted { head, key := a.key.label, quote := '"' } rfl
    a.value.toList stack
  have hend : ∀ v : Value, v.quote = '"' →
      step ⟨.value v, stack⟩ '"' = some ⟨.quoted v.closed, stack⟩ :=
    fun v hv => if_pos hv.symm
  rw [Attribute.toList_render, hks, final?_cons_of_eq hblank, List.cons_append,
    final?_cons_of_eq hfirst, final?_append_of_eq hcollect, final?_cons_of_eq hequals,
    final?_cons_of_eq hquote, final?_append_of_eq hvalue, final?_cons_of_eq (hend _ rfl),
    final?_nil, attributeOf, ← attributeText_eq]
  rfl

theorem final?_attributes {mode : Mode} (h : Behind head mode) (as : List Attribute)
    (hkeys : (head.attributes.map Prod.fst ++ as.map (·.key.label)).Nodup)
    (stack : List OpenElement) :
    ∃ mode', Behind { head with attributes := head.attributes ++ as.map attributeOf } mode' ∧
      final? step ⟨mode, stack⟩ (as.flatMap (·.render.toList)) = some ⟨mode', stack⟩ := by
  induction as generalizing mode head with
  | nil => exact ⟨mode, by simpa using h, rfl⟩
  | cons a as ih =>
    have hkey : a.key.label ∉ head.attributes.map Prod.fst := by
      intro hmem
      exact (List.nodup_append.1 hkeys).2.2 _ hmem _ List.mem_cons_self rfl
    have hquoted : Behind { head with attributes := head.attributes ++ [attributeOf a] }
        (.quoted { head with attributes := head.attributes ++ [attributeOf a] }) := .inr rfl
    obtain ⟨mode', hbehind, hrun⟩ := ih hquoted (by simpa [attributeOf] using hkeys)
    refine ⟨mode', by simpa using hbehind, ?_⟩
    rw [List.flatMap_cons, final?_append_of_eq (final?_attribute h hkey), hrun]

theorem final?_tagText_append {label : String} (h : IsName label) {as : List Attribute}
    (hkeys : (as.map Attribute.key).Nodup) (brackets : Nat) {c : Char}
    (hc : isNamePart c = false) (cs : List Char) :
    final? step ⟨.content brackets, stack⟩ ('<' :: (tagText label as).toList ++ c :: cs) =
      (readBehind ⟨label, as.map attributeOf⟩ stack c).bind fun t => final? step t cs := by
  obtain ⟨d, ds, hlabel, hd, hds⟩ := h
  have hbracket : step ⟨.content brackets, stack⟩ '<' = some ⟨.bracket, stack⟩ := rfl
  have hslash : d ≠ '/' := by
    rintro rfl
    exact absurd hd (by decide)
  have hfirst : step ⟨.bracket, stack⟩ d = some ⟨.opening [d], stack⟩ := by
    simp [step, hslash, hd]
  have hname : final? step ⟨.opening [d], stack⟩ ds = some ⟨.opening label.toList, stack⟩ := by
    rw [hlabel]
    exact final?_of_collects (fun name => Reader.mk (.opening name) stack)
      (fun read c hc => if_pos hc) hds [d]
  have hnodup : (as.map (·.key.label)).Nodup := by
    have hinjective : Key.label.Injective := fun _ _ => Key.label_inj.1
    have hlabels := (List.nodup_map_iff hinjective).2 hkeys
    rwa [List.map_map] at hlabels
  have hopening : Behind ⟨label, []⟩ (.opening label.toList) :=
    .inl ⟨_, rfl, by rw [String.ofList_toList]⟩
  obtain ⟨mode, hbehind, hattributes⟩ := final?_attributes hopening as hnodup stack
  rw [List.cons_append, final?_cons_of_eq hbracket, toList_tagText, hlabel, List.append_assoc,
    List.cons_append, final?_cons_of_eq hfirst, final?_append_of_eq hname,
    final?_append_of_eq hattributes, final?_cons, step_behind hbehind hc]
  rfl

/-- **An opening tag** opens an element. -/
theorem final?_openingTag {label : String} (h : IsName label) {as : List Attribute}
    (hkeys : (as.map Attribute.key).Nodup) (brackets : Nat) (stack : List OpenElement) :
    final? step ⟨.content brackets, stack⟩ (openingTag label as).toList =
      some { stack := { head := ⟨label, as.map attributeOf⟩ } :: stack } := by
  rw [toList_openingTag, final?_tagText_append h hkeys brackets (by decide)]
  rfl

/-- **A tag that closes itself** is an element. -/
theorem final?_selfClosingTag {label : String} (h : IsName label) {as : List Attribute}
    (hkeys : (as.map Attribute.key).Nodup) (brackets : Nat) :
    final? step ⟨.content brackets, stack⟩ (selfClosingTag label as).toList =
      some (complete (.element label (as.map attributeOf) []) stack) := by
  rw [toList_selfClosingTag, final?_tagText_append h hkeys brackets (by decide)]
  rfl

/-- **A closing tag** closes the innermost element. -/
theorem final?_closingTag {o : OpenElement} (h : IsName o.head.name) (brackets : Nat)
    (stack : List OpenElement) :
    final? step ⟨.content brackets, o :: stack⟩ (closingTag o.head.name).toList =
      some (complete (.element o.head.name o.head.attributes o.content.reverse) stack) := by
  obtain ⟨d, ds, hlabel, hd, hds⟩ := h
  have hbracket : step ⟨.content brackets, o :: stack⟩ '<' = some ⟨.bracket, o :: stack⟩ := rfl
  have hslash : step ⟨.bracket, o :: stack⟩ '/' = some ⟨.closing [], o :: stack⟩ := rfl
  have hpart : isNamePart d = true := by simp [isNamePart, hd]
  have hfirst : step ⟨.closing [], o :: stack⟩ d = some ⟨.closing [d], o :: stack⟩ :=
    if_pos ⟨hpart, fun _ => hd⟩
  have hcollect :
      final? step ⟨.closing [d], o :: stack⟩ ds = some ⟨.closing (d :: ds), o :: stack⟩ :=
    final?_of_collects (fun name => Reader.mk (.closing (d :: name)) (o :: stack))
      (fun read c hc => if_pos ⟨hc, fun h => absurd h (by simp)⟩) hds []
  have hend : step ⟨.closing (d :: ds), o :: stack⟩ '>' =
      some (complete (.element o.head.name o.head.attributes o.content.reverse) stack) := by
    have hname : o.head.name = String.ofList (d :: ds) := by rw [← hlabel, String.ofList_toList]
    have hbehind : isNamePart '>' = false := by decide
    simp [step, hbehind, close, ← hname]
  rw [toList_closingTag, hlabel, final?_cons_of_eq hbracket, final?_cons_of_eq hslash,
    List.cons_append, final?_cons_of_eq hfirst, final?_append_of_eq hcollect,
    final?_cons_of_eq hend, final?_nil]

/-! ### Elements -/

theorem addChar_ofElement (c : Char) (e : Element) (nodes : List Node) :
    addChar c (.ofElement e :: nodes) = .text (String.singleton c) :: .ofElement e :: nodes := by
  cases e <;> rfl

theorem final?_lines {es : List Element}
    (h : ∀ e ∈ es, ∀ brackets (stack : List OpenElement),
      final? step ⟨.content brackets, stack⟩ e.render.toList = some (complete (.ofElement e) stack))
    (o : OpenElement) (stack : List OpenElement) :
    final? step ⟨.content 0, o :: stack⟩ (Element.lines es).toList =
      some { stack := { o with content := (Node.ofLines es).reverse ++ o.content } :: stack } := by
  induction es generalizing o with
  | nil => rfl
  | cons e es ih =>
    obtain ⟨he, hes⟩ := List.forall_mem_cons.1 h
    have hbreak : final? step (complete (.ofElement e) (o :: stack)) lineSeparator.toList =
        some { stack :=
          { o with content := .text "\n" :: .ofElement e :: o.content } :: stack } := by
      have hadd : addChar '\n' (.ofElement e :: o.content) =
          .text "\n" :: .ofElement e :: o.content := addChar_ofElement '\n' e o.content
      rw [← hadd]
      rfl
    have hrest := ih hes { o with content := .text "\n" :: .ofElement e :: o.content }
    rw [Element.lines_cons, Element.line, String.toList_append, String.toList_append,
      List.append_assoc, final?_append_of_eq (he 0 (o :: stack)), final?_append_of_eq hbreak, hrest]
    simp [Node.ofLines]

/-- **An element is read as its tree.** -/
theorem final?_render {e : Element} (h : Readable e) (brackets : Nat) (stack : List OpenElement) :
    final? step ⟨.content brackets, stack⟩ e.render.toList =
      some (complete (.ofElement e) stack) := by
  induction h generalizing brackets stack with
  | @leaf tag attributes keys => exact final?_selfClosingTag (isName_leafTag tag) keys brackets
  | @text tag content =>
    have hkeys : (([] : List Attribute).map Attribute.key).Nodup := List.nodup_nil
    have hopening : final? step ⟨.content brackets, stack⟩ (openingTag tag.label []).toList =
        some { stack := { head := ⟨tag.label, []⟩ } :: stack } :=
      final?_openingTag (isName_textTag tag) hkeys brackets stack
    obtain ⟨brackets', hcontent⟩ :=
      final?_escape_content { head := ⟨tag.label, []⟩ } stack 0 content.toList
    have hname : IsName (OpenElement.mk ⟨tag.label, []⟩ (textNodes content)).head.name :=
      isName_textTag tag
    have hclosing := final?_closingTag hname brackets' stack
    -- nodes are collected in reverse order; here there is one at most
    have hnodes : (textNodes content).reverse = textNodes content := by
      unfold textNodes
      split_ifs <;> rfl
    rw [foldl_addChar_nil] at hcontent
    rw [hnodes] at hclosing
    rw [Element.render, String.toList_append, String.toList_append, List.append_assoc,
      final?_append_of_eq hopening, toList_escape, final?_append_of_eq hcontent]
    exact hclosing
  | @group tag attributes children keys _ ih =>
    have hopening := final?_openingTag (isName_groupTag tag) keys brackets stack
    have hbreak : final? step
        ⟨.content 0, { head := ⟨tag.label, attributes.map attributeOf⟩ } :: stack⟩
        lineSeparator.toList = some { stack :=
          { head := ⟨tag.label, attributes.map attributeOf⟩, content := [.text "\n"] } :: stack } :=
      rfl
    -- the line break behind the tag is a text of its own in front of the children
    have hlines := final?_lines ih
      { head := ⟨tag.label, attributes.map attributeOf⟩, content := [.text "\n"] } stack
    have hname : IsName (OpenElement.mk ⟨tag.label, attributes.map attributeOf⟩
        ((Node.ofLines children).reverse ++ [.text "\n"])).head.name := isName_groupTag tag
    have hclosing := final?_closingTag hname 0 stack
    have hnodes : ((Node.ofLines children).reverse ++ [Node.text "\n"]).reverse =
        .text "\n" :: Node.ofLines children := by simp
    rw [hnodes] at hclosing
    rw [Element.render_group, String.toList_append, String.toList_append, String.toList_append,
      List.append_assoc, List.append_assoc, final?_append_of_eq hopening,
      final?_append_of_eq hbreak, final?_append_of_eq hlines]
    exact hclosing

end Reader

end Xml

end DiagnosticReport
