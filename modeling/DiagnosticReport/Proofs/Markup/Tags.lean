import DiagnosticReport.Proofs.Markup.Nesting

/-!
# The tags of a text

Who looks for a tag in a report, and not for a certain element, reads a text bracket by bracket:
`tags` lists what stands between each opening bracket and the next closing one. Since brackets in
texts and values are escaped, nothing that a report tells of can be taken for a tag of it: the tags
of an element are those of its tree and no others (`Element.hasTags_render`), and each has the name
of an element of it.
-/

namespace DiagnosticReport

namespace Markup

/-- What stands between each opening bracket and the next closing one, in order. -/
def tags : List Char → List String
  | [] => []
  | c :: cs => if c = '<' then String.ofList (cs.takeWhile (· ≠ '>')) :: tags cs else tags cs

/-- The name in a tag that opens or closes an element. -/
def tagName (tag : String) : String :=
  String.ofList ((tag.toList.dropWhile (· = '/')).takeWhile (IsNameChar ·))

namespace Element

mutual

/-- The tags of an element, and of the elements in it. -/
def tagList : Element → List String
  | .leaf tag attributes => [tagText tag.label attributes ++ "/"]
  | .text tag _ => [tag.label, "/" ++ tag.label]
  | .group tag attributes children =>
    tagText tag.label attributes :: (tagLists children ++ ["/" ++ tag.label])

/-- The tags of several elements. -/
def tagLists : List Element → List String
  | [] => []
  | e :: es => tagList e ++ tagLists es

end

theorem tagLists_eq_flatMap (es : List Element) : tagLists es = es.flatMap tagList := by
  induction es with
  | nil => rfl
  | cons e es ih => rw [tagLists, ih, List.flatMap_cons]

end Element

/-! ### Pieces of a text -/

/-- These are the tags of a text, whatever follows it. -/
def HasTags (cs : List Char) (found : List String) : Prop :=
  ∀ rest, tags (cs ++ rest) = found ++ tags rest

namespace HasTags

variable {cs ds : List Char} {found found' : List String}

theorem tags_eq (h : HasTags cs found) : tags cs = found := by
  have hend := h []
  rwa [List.append_nil, tags, List.append_nil] at hend

theorem append (h : HasTags cs found) (h' : HasTags ds found') :
    HasTags (cs ++ ds) (found ++ found') := by
  intro rest
  rw [List.append_assoc, h, h', List.append_assoc]

theorem of_not_bracket (h : ∀ c ∈ cs, c ≠ '<' ∧ c ≠ '>') : HasTags cs [] := by
  intro rest
  induction cs with
  | nil => rfl
  | cons c cs ih =>
    obtain ⟨hc, hcs⟩ := List.forall_mem_cons.1 h
    rw [List.cons_append, tags, if_neg hc.1, ih hcs]

theorem tag {inside : String} (h : ∀ c ∈ inside.toList, c ≠ '<' ∧ c ≠ '>') :
    HasTags ("<" ++ inside ++ ">").toList [inside] := by
  intro rest
  have hinside : (inside.toList ++ '>' :: rest).takeWhile (· ≠ '>') = inside.toList := by
    rw [List.takeWhile_append_of_pos (by simpa using fun c hc => (h c hc).2)]
    simp
  have hbehind : tags (inside.toList ++ '>' :: rest) = tags rest := by
    rw [of_not_bracket h ('>' :: rest), tags, if_neg (by decide), List.nil_append]
  have hchars : ("<" ++ inside ++ ">").toList ++ rest = '<' :: (inside.toList ++ '>' :: rest) := by
    simp
  rw [hchars, tags, if_pos rfl, hinside, hbehind, String.ofList_toList, List.singleton_append]

end HasTags

/-! ### Tags -/

theorem IsNameChar.ne {c d : Char} (h : IsNameChar c) (hd : ¬ IsNameChar d) : c ≠ d := by
  rintro rfl
  exact hd h

theorem not_bracket_of_mem_tagText {label : String} (h : IsName label)
    {attributes : List Attribute} {c : Char} (hc : c ∈ (tagText label attributes).toList) :
    c ≠ '<' ∧ c ≠ '>' := by
  have hname : ∀ {name : String}, IsName name → c ∈ name.toList → c ≠ '<' ∧ c ≠ '>' :=
    fun hname hc => ⟨(hname.2 c hc).ne (by decide), (hname.2 c hc).ne (by decide)⟩
  rw [toList_tagText, List.mem_append, List.mem_flatMap] at hc
  rcases hc with hc | ⟨a, -, hc⟩
  · exact hname h hc
  · simp only [Attribute.toList_render, List.mem_cons, List.mem_append, List.not_mem_nil,
      or_false] at hc
    rcases hc with rfl | hc | rfl | rfl | hc | rfl
    · decide
    · exact hname a.key.isName_label hc
    · decide
    · decide
    · exact not_bracket_of_mem_escaped hc
    · decide

theorem hasTags_openingTag {label : String} (h : IsName label) (attributes : List Attribute) :
    HasTags (openingTag label attributes).toList [tagText label attributes] :=
  .tag fun _ hc => not_bracket_of_mem_tagText h hc

theorem hasTags_selfClosingTag {label : String} (h : IsName label)
    (attributes : List Attribute) :
    HasTags (selfClosingTag label attributes).toList [tagText label attributes ++ "/"] := by
  have htag :
      selfClosingTag label attributes = "<" ++ (tagText label attributes ++ "/") ++ ">" := by
    simp [selfClosingTag, String.append_assoc]
  rw [htag]
  refine .tag fun c hc => ?_
  rw [String.toList_append, List.mem_append] at hc
  rcases hc with hc | hc
  · exact not_bracket_of_mem_tagText h hc
  · rw [List.mem_singleton.1 hc]
    decide

theorem hasTags_closingTag {label : String} (h : IsName label) :
    HasTags (closingTag label).toList ["/" ++ label] := by
  have htag : closingTag label = "<" ++ ("/" ++ label) ++ ">" :=
    String.toList_inj.1 (by simp [closingTag])
  rw [htag]
  refine .tag fun c hc => ?_
  rw [String.toList_append, List.mem_append] at hc
  rcases hc with hc | hc
  · rw [List.mem_singleton.1 hc]
    decide
  · exact ⟨(h.2 c hc).ne (by decide), (h.2 c hc).ne (by decide)⟩

/-! ### Elements -/

namespace Element

theorem hasTags_lines {es : List Element} (h : ∀ e ∈ es, HasTags e.render.toList e.tagList) :
    HasTags (lines es).toList (tagLists es) := by
  induction es with
  | nil => exact .of_not_bracket (by simp)
  | cons e es ih =>
    obtain ⟨he, hes⟩ := List.forall_mem_cons.1 h
    have hbreak : HasTags lineSeparator.toList [] := .of_not_bracket (by simp [lineSeparator])
    have hline := (he.append hbreak).append (ih hes)
    rwa [List.append_nil, ← String.toList_append, ← String.toList_append, ← line,
      ← lines_cons] at hline

/-- **The tags of an element** are those of its tree. -/
theorem hasTags_render (e : Element) : HasTags e.render.toList e.tagList := by
  induction e with
  | leaf tag attributes => exact hasTags_selfClosingTag tag.isName_label attributes
  | text tag content =>
    have hcontent : HasTags (escape .content content).toList [] := by
      refine .of_not_bracket fun d hd => ?_
      rw [toList_escape] at hd
      exact not_bracket_of_mem_escaped hd
    have hopening := hasTags_openingTag tag.isName_label []
    have hclosing := hasTags_closingTag tag.isName_label
    simpa [render, tagList, tagText] using (hopening.append hcontent).append hclosing
  | group tag attributes children ih =>
    have hopening := hasTags_openingTag tag.isName_label attributes
    have hbreak : HasTags lineSeparator.toList [] := .of_not_bracket (by simp [lineSeparator])
    have hclosing := hasTags_closingTag tag.isName_label
    rw [render_group]
    simpa [tagList] using ((hopening.append hbreak).append (hasTags_lines ih)).append hclosing

end Element

/-! ### Names in tags -/

theorem tagName_eq {tag label : String} (h : IsName label) {slash rest : List Char}
    (htag : tag.toList = slash ++ (label.toList ++ rest)) (hslash : ∀ c ∈ slash, c = '/')
    (hrest : ∀ c ∈ rest.head?, ¬ IsNameChar c) : tagName tag = label := by
  obtain ⟨c, cs, hcs⟩ := List.exists_cons_of_ne_nil h.1
  have hc : c ≠ '/' := (h.2 c (hcs ▸ List.mem_cons_self)).ne (by decide)
  have hdrop : tag.toList.dropWhile (· = '/') = label.toList ++ rest := by
    rw [htag, List.dropWhile_append_of_pos (by simpa using hslash), hcs]
    simp [hc]
  have hend : rest.takeWhile (IsNameChar ·) = [] := by
    cases rest with
    | nil => rfl
    | cons d ds => exact List.takeWhile_cons_of_neg (by simpa using hrest d rfl)
  rw [tagName, hdrop, List.takeWhile_append_of_pos (by simpa using h.2), hend, List.append_nil,
    String.ofList_toList]

theorem tagName_tagText {label : String} (h : IsName label) (attributes : List Attribute) :
    tagName (tagText label attributes) = label := by
  refine tagName_eq h ((toList_tagText label attributes).trans (List.nil_append _).symm)
    (by simp) ?_
  cases attributes with
  | nil => simp
  | cons a as => simp [Attribute.toList_render, IsNameChar]

theorem tagName_closing {label : String} (h : IsName label) : tagName ("/" ++ label) = label := by
  have hchars : ("/" ++ label).toList = ['/'] ++ (label.toList ++ []) := by simp
  exact tagName_eq h hchars (by simp) (by simp)

end Markup

end DiagnosticReport
