import DiagnosticReport.Proofs.Markup.BlankLines
import DiagnosticReport.Proofs.Xml.Elements

/-!
# Documents that are read as XML

A document is an element with a line break behind it. A reader accepts it exactly if no string in it
holds a character that is none of XML, and reads it as the tree of the element, with its line ends
normalized: those are outside of all tags and names, so that it makes no difference whether they are
normalized in the document or in its strings (`normalizes_render`).
-/

namespace DiagnosticReport

namespace Xml

open Markup

/-! ### Line ends -/

/-- A text with a line break at the end of every line. -/
def lineText (s : String) : String :=
  String.ofList (normalizeLines s.toList)

theorem normalizeLines_cons_of_ne {c : Char} (h : c ≠ '\r') (cs : List Char) :
    normalizeLines (c :: cs) = c :: normalizeLines cs := by
  rw [normalizeLines.eq_def]
  split <;> simp_all

theorem normalizeLines_return {cs : List Char} (h : cs.head? ≠ some '\n') :
    normalizeLines ('\r' :: cs) = '\n' :: normalizeLines cs := by
  cases cs with
  | nil => rfl
  | cons c cs =>
    have hc : c ≠ '\n' := fun hc => h (by rw [hc]; rfl)
    exact normalizeLines.eq_2 (c :: cs) fun ds hds => hc (List.cons.inj hds).1

theorem return_not_mem_normalizeLines (cs : List Char) : '\r' ∉ normalizeLines cs := by
  fun_induction normalizeLines cs with
  | case1 cs ih => simpa using ih
  | case2 cs _ ih => simpa using ih
  | case3 c cs _ hc ih => exact List.not_mem_cons_of_ne_of_not_mem (fun h => hc h.symm) ih
  | case4 => simp

/-- What a piece of text is normalized to, whatever follows it. -/
def Normalizes (cs ds : List Char) : Prop :=
  ∀ rest, normalizeLines (cs ++ rest) = ds ++ normalizeLines rest

namespace Normalizes

variable {cs ds cs' ds' : List Char}

theorem append (h : Normalizes cs ds) (h' : Normalizes cs' ds') :
    Normalizes (cs ++ cs') (ds ++ ds') := by
  intro rest
  rw [List.append_assoc, h, h', List.append_assoc]

theorem eq (h : Normalizes cs ds) : normalizeLines cs = ds := by
  have hend := h []
  rwa [List.append_nil, normalizeLines, List.append_nil] at hend

theorem of_not_mem (h : '\r' ∉ cs) : Normalizes cs cs := by
  intro rest
  induction cs with
  | nil => rfl
  | cons c cs ih =>
    rw [List.mem_cons, not_or] at h
    rw [List.cons_append, normalizeLines_cons_of_ne (Ne.symm h.1), ih h.2, List.cons_append]

end Normalizes

theorem normalizeLines_eq_self_iff {cs : List Char} : normalizeLines cs = cs ↔ '\r' ∉ cs :=
  ⟨fun h => h ▸ return_not_mem_normalizeLines cs, fun h => (Normalizes.of_not_mem h).eq⟩

/-- **A text that is escaped**, with a character behind it that is no end of a line. -/
theorem normalizes_escape (place : Place) (cs : List Char) {d : Char} (hbreak : d ≠ '\n')
    (hreturn : d ≠ '\r') :
    Normalizes (cs.flatMap (escapeChar place) ++ [d])
      ((normalizeLines cs).flatMap (escapeChar place) ++ [d]) := by
  have hplain : escapeChar place '\r' = ['\r'] ∧ escapeChar place '\n' = ['\n'] :=
    ⟨escapeChar_of_plain place (by decide), escapeChar_of_plain place (by decide)⟩
  fun_induction normalizeLines cs with
  | case1 cs ih =>
    intro rest
    rw [List.flatMap_cons, List.flatMap_cons, List.flatMap_cons, hplain.1, hplain.2]
    exact congrArg ('\n' :: ·) (ih rest)
  | case2 cs hne ih =>
    intro rest
    -- what follows the carriage return is no line break
    have hhead : (cs.flatMap (escapeChar place) ++ [d] ++ rest).head? ≠ some '\n' := by
      cases cs with
      | nil => simpa using hbreak
      | cons c cs =>
        have hc : (c :: cs).head? ≠ some '\n' := fun h => hne cs (by rw [Option.some.inj h])
        rw [ne_eq, ← head?_flatMap_escapeChar place] at hc
        have hne : (c :: cs).flatMap (escapeChar place) ≠ [] := by simp [escapeChar_ne_nil]
        obtain ⟨e, es, hes⟩ := List.exists_cons_of_ne_nil hne
        rw [hes] at hc ⊢
        exact hc
    rw [List.flatMap_cons, List.flatMap_cons, hplain.1, hplain.2]
    exact (normalizeLines_return hhead).trans (congrArg ('\n' :: ·) (ih rest))
  | case3 c cs _ hc ih =>
    have hfirst := Normalizes.of_not_mem (not_mem_escapeChar place (by decide) hc)
    rw [List.flatMap_cons, List.flatMap_cons, List.append_assoc, List.append_assoc]
    exact hfirst.append ih
  | case4 => exact .of_not_mem (by simpa using Ne.symm hreturn)

/-! ### The strings of an element -/

/-- An attribute with another value. -/
def mapValue (f : String → String) (a : Attribute) : Attribute :=
  { a with value := f a.value }

mutual

/-- An element with other strings. -/
def mapStrings (f : String → String) : Element → Element
  | .leaf tag attributes => .leaf tag (attributes.map (mapValue f))
  | .text tag content => .text tag (f content)
  | .group tag attributes children =>
    .group tag (attributes.map (mapValue f)) (mapStringsAll f children)

/-- Elements with other strings. -/
def mapStringsAll (f : String → String) : List Element → List Element
  | [] => []
  | e :: es => mapStrings f e :: mapStringsAll f es

end

mutual

/-- The strings in an element. -/
def stringsOf : Element → List String
  | .leaf _ attributes => attributes.map Attribute.value
  | .text _ content => [content]
  | .group _ attributes children => attributes.map Attribute.value ++ stringsOfAll children

/-- The strings in elements. -/
def stringsOfAll : List Element → List String
  | [] => []
  | e :: es => stringsOf e ++ stringsOfAll es

end

/-! ### Normalized elements -/

theorem normalizes_attribute (a : Attribute) :
    Normalizes a.render.toList (mapValue lineText a).render.toList := by
  have hfront : Normalizes (' ' :: (a.key.label.toList ++ ['=', '"']))
      (' ' :: (a.key.label.toList ++ ['=', '"'])) := by
    refine .of_not_mem ?_
    simp [a.key.isName_label.not_mem (c := '\r') (by decide)]
  have hvalue := normalizes_escape .quoted a.value.toList (d := '"') (by decide) (by decide)
  have hwhole := hfront.append hvalue
  simpa [Attribute.toList_render, mapValue, lineText] using hwhole

theorem normalizes_tagText {label : String} (h : Markup.IsName label) (as : List Attribute) :
    Normalizes (tagText label as).toList (tagText label (as.map (mapValue lineText))).toList := by
  have hattributes : Normalizes (as.flatMap (·.render.toList))
      ((as.map (mapValue lineText)).flatMap (·.render.toList)) := by
    induction as with
    | nil => exact .of_not_mem (by simp)
    | cons a as ih => exact (normalizes_attribute a).append ih
  rw [toList_tagText, toList_tagText]
  exact (Normalizes.of_not_mem (h.not_mem (by decide))).append hattributes

theorem normalizes_bracketed {label : String} (h : Markup.IsName label) (as : List Attribute)
    {ending : List Char} (hending : '\r' ∉ ending) :
    Normalizes ('<' :: (tagText label as).toList ++ ending)
      ('<' :: (tagText label (as.map (mapValue lineText))).toList ++ ending) := by
  have hfront : Normalizes ['<'] ['<'] := .of_not_mem (by decide)
  exact (hfront.append (normalizes_tagText h as)).append (.of_not_mem hending)

theorem normalizes_openingTag {label : String} (h : Markup.IsName label) (as : List Attribute) :
    Normalizes (openingTag label as).toList
      (openingTag label (as.map (mapValue lineText))).toList := by
  rw [toList_openingTag, toList_openingTag]
  exact normalizes_bracketed h as (by decide)

theorem normalizes_selfClosingTag {label : String} (h : Markup.IsName label)
    (as : List Attribute) :
    Normalizes (selfClosingTag label as).toList
      (selfClosingTag label (as.map (mapValue lineText))).toList := by
  rw [toList_selfClosingTag, toList_selfClosingTag]
  exact normalizes_bracketed h as (by decide)

theorem normalizes_lines {es : List Element}
    (h : ∀ e ∈ es, Normalizes e.render.toList (mapStrings lineText e).render.toList) :
    Normalizes (Element.lines es).toList (Element.lines (mapStringsAll lineText es)).toList := by
  induction es with
  | nil => exact .of_not_mem (by simp [Element.lines_nil])
  | cons e es ih =>
    obtain ⟨he, hes⟩ := List.forall_mem_cons.1 h
    have hbreak : Normalizes lineSeparator.toList lineSeparator.toList := .of_not_mem (by decide)
    simpa [mapStringsAll, Element.line] using (he.append hbreak).append (ih hes)

/-- **To normalize the line ends of an element** is to normalize those of its strings. -/
theorem normalizes_render (e : Element) :
    Normalizes e.render.toList (mapStrings lineText e).render.toList := by
  induction e with
  | leaf tag attributes => exact normalizes_selfClosingTag tag.isName_label attributes
  | text tag content =>
    have hopening := normalizes_openingTag tag.isName_label []
    have hcontent := normalizes_escape .content content.toList (d := '<') (by decide) (by decide)
    have hclosing : Normalizes ('/' :: (tag.label.toList ++ ['>']))
        ('/' :: (tag.label.toList ++ ['>'])) := by
      refine .of_not_mem ?_
      simp [tag.isName_label.not_mem (c := '\r') (by decide)]
    simpa [Element.render, mapStrings, closingTag, lineText] using
      (hopening.append hcontent).append hclosing
  | group tag attributes children ih =>
    have hopening := normalizes_openingTag tag.isName_label attributes
    have hbreak : Normalizes lineSeparator.toList lineSeparator.toList := .of_not_mem (by decide)
    have hclosing : Normalizes (closingTag tag.label).toList (closingTag tag.label).toList := by
      refine .of_not_mem ?_
      simp [closingTag, tag.isName_label.not_mem (c := '\r') (by decide)]
    rw [mapStrings, Element.render_group, Element.render_group]
    simpa using ((hopening.append hbreak).append (normalizes_lines ih)).append hclosing

theorem mapStringsAll_eq_map (f : String → String) (es : List Element) :
    mapStringsAll f es = es.map (mapStrings f) := by
  induction es with
  | nil => rfl
  | cons e es ih => rw [mapStringsAll, ih, List.map_cons]

theorem Readable.mapStrings {e : Element} (h : Readable e) (f : String → String) :
    Readable (mapStrings f e) := by
  have hkeys : ∀ as : List Attribute, (as.map (mapValue f)).map Attribute.key =
      as.map Attribute.key := by
    intro as
    rw [List.map_map]
    rfl
  induction h with
  | leaf keys => exact .leaf (by rwa [hkeys])
  | text => exact .text
  | group keys _ ih =>
    refine .group (by rwa [hkeys]) fun e he => ?_
    rw [mapStringsAll_eq_map] at he
    obtain ⟨child, hchild, rfl⟩ := List.mem_map.1 he
    exact ih child hchild

/-! ### Characters -/

/-- Whether all characters of a string are allowed. -/
def isText (s : String) : Bool :=
  s.toList.all isChar

@[simp] theorem isText_append (s t : String) : isText (s ++ t) = (isText s && isText t) := by
  simp [isText]

@[simp] theorem isText_join (strings : List String) :
    isText (String.join strings) = strings.all isText := by
  induction strings with
  | nil => simp [isText]
  | cons s strings ih => rw [String.join_cons, isText_append, ih, List.all_cons]

theorem isChar_escapeChar (place : Place) (c : Char) :
    (escapeChar place c).all isChar = isChar c := by
  unfold escapeChar
  split_ifs with hamp hlt hgt hquote
  · rw [hamp]
    decide
  · rw [hlt]
    decide
  · rw [hgt]
    decide
  · rw [hquote.1]
    decide
  · simp

@[simp] theorem isText_escape (place : Place) (s : String) :
    isText (escape place s) = isText s := by
  rw [isText, isText, toList_escape]
  induction s.toList with
  | nil => rfl
  | cons c cs ih => rw [List.flatMap_cons, List.all_append, isChar_escapeChar, ih, List.all_cons]

theorem isText_of_isName {name : String} (h : Markup.IsName name) : isText name = true := by
  refine List.all_eq_true.2 fun c hc => ?_
  rcases h.2 c hc with hlower | rfl
  · obtain ⟨hfrom, hto⟩ := Bool.and_eq_true_iff.1 hlower
    have hrange : 97 ≤ c.toNat ∧ c.toNat ≤ 122 :=
      ⟨of_decide_eq_true hfrom, of_decide_eq_true hto⟩
    have hallowed : 0x20 ≤ c.toNat ∧ c.toNat ≤ 0xD7FF := ⟨by omega, by omega⟩
    simp only [isChar, hallowed.1, hallowed.2, decide_true, Bool.and_self, Bool.or_true,
      Bool.true_or]
  · decide

theorem isText_tagText {label : String} (h : Markup.IsName label) (as : List Attribute) :
    isText (tagText label as) = (as.map Attribute.value).all isText := by
  have hkey : ∀ a : Attribute, isText a.render = isText a.value := by
    intro a
    have hmarks : isText " " = true ∧ isText "=\"" = true ∧ isText "\"" = true := by decide
    simp [Attribute.render, isText_of_isName a.key.isName_label, hmarks]
  simp [tagText, isText_of_isName h, hkey, Function.comp_def]

theorem isText_openingTag {label : String} (h : Markup.IsName label) (as : List Attribute) :
    isText (openingTag label as) = (as.map Attribute.value).all isText := by
  have hmarks : isText "<" = true ∧ isText ">" = true := by decide
  simp only [openingTag, isText_append, isText_tagText h, hmarks, Bool.true_and, Bool.and_true]

theorem isText_closingTag {label : String} (h : Markup.IsName label) :
    isText (closingTag label) = true := by
  have hmarks : isText "</" = true ∧ isText ">" = true := by decide
  simp only [closingTag, isText_append, isText_of_isName h, hmarks, Bool.and_self]

theorem isText_lines {es : List Element}
    (h : ∀ e ∈ es, isText e.render = (stringsOf e).all isText) :
    isText (Element.lines es) = (stringsOfAll es).all isText := by
  have hbreak : isText lineSeparator = true := by decide
  induction es with
  | nil => decide
  | cons e es ih =>
    obtain ⟨he, hes⟩ := List.forall_mem_cons.1 h
    simp [Element.line, stringsOfAll, he, ih hes, hbreak]

/-- **The characters of an element** are allowed if those of its strings are. -/
theorem isText_render (e : Element) : isText e.render = (stringsOf e).all isText := by
  induction e with
  | leaf tag attributes =>
    have hmarks : isText "<" = true ∧ isText "/>" = true := by decide
    simp only [Element.render, selfClosingTag, stringsOf, isText_append,
      isText_tagText tag.isName_label, hmarks, Bool.true_and, Bool.and_true]
  | text tag content =>
    simp [Element.render, stringsOf, isText_openingTag tag.isName_label,
      isText_closingTag tag.isName_label]
  | group tag attributes children ih =>
    have hbreak : isText lineSeparator = true := by decide
    rw [Element.render_group, stringsOf, List.all_append, ← isText_lines ih]
    simp only [isText_append, isText_openingTag tag.isName_label,
      isText_closingTag tag.isName_label, hbreak, Bool.and_true]

/-! ### Documents -/

theorem ofUtf8?_utf8 (s : String) : Text.ofUtf8? (Text.utf8 s).toByteArray = some s := by
  rw [Text.toByteArray_utf8, Text.ofUtf8?, String.fromUTF8?, dif_pos s.isValidUTF8]
  rfl

/-- **What a document is read as**: the tree of its element with normalized line ends, if all
characters of its strings are allowed, and otherwise nothing. -/
theorem read?_render {e : Element} (h : Readable e) :
    read? (Text.utf8 (e.render ++ "\n")) =
      if (stringsOf e).all isText then some (.ofElement (mapStrings lineText e)) else none := by
  have hchars : (e.render ++ "\n").toList.all isChar = (stringsOf e).all isText := by
    have hbreak : isText "\n" = true := by decide
    rw [← isText_render, ← Bool.and_true (isText e.render), ← hbreak, ← isText_append]
    rfl
  have hrun : Run.final? Reader.step {} (normalizeLines (e.render ++ "\n").toList) =
      some { mode := .ended (.ofElement (mapStrings lineText e)) } := by
    have hbreak : normalizeLines ['\n'] = ['\n'] := by decide
    have helement := Reader.final?_render (h.mapStrings lineText) 0 []
    rw [String.toList_append, normalizes_render e]
    exact (Run.final?_append_of_eq helement _).trans rfl
  rw [read?, ofUtf8?_utf8, Option.bind_some, readChars?, hchars, hrun]

end Xml

end DiagnosticReport
