import DiagnosticReport.Markup.Escape
import Mathlib.Tactic.SplitIfs

/-!
# Escaping can be undone

`unescape` reads a text from left to right and puts characters in the place of entities. It gives
back what was escaped (`unescape_flatMap_escapeChar`), so that no two texts are written alike
(`escape_inj`). An escaped text cannot be taken for markup: it holds no bracket
(`not_bracket_of_mem_escaped`) and, between quotes, no quote (`ne_quote_of_mem_escaped`), and
an ampersand stands in it only where an entity starts (`entity_prefix_of_escaped`).
`escape_undone` is all of this in one.
-/

namespace DiagnosticReport

namespace Markup

/-- A text with the characters that its entities stand for. -/
def unescape : List Char → List Char
  | '&' :: 'a' :: 'm' :: 'p' :: ';' :: rest => '&' :: unescape rest
  | '&' :: 'l' :: 't' :: ';' :: rest => '<' :: unescape rest
  | '&' :: 'g' :: 't' :: ';' :: rest => '>' :: unescape rest
  | '&' :: 'q' :: 'u' :: 'o' :: 't' :: ';' :: rest => '"' :: unescape rest
  | c :: rest => c :: unescape rest
  | [] => []

theorem unescape_cons {c : Char} (h : c ≠ '&') (rest : List Char) :
    unescape (c :: rest) = c :: unescape rest := by
  rw [unescape.eq_def]
  split <;> simp_all

theorem unescape_escapeChar_append (place : Place) (c : Char) (rest : List Char) :
    unescape (escapeChar place c ++ rest) = c :: unescape rest := by
  unfold escapeChar
  by_cases hamp : c = '&'
  · subst hamp
    simp [unescape]
  by_cases hlt : c = '<'
  · subst hlt
    simp [unescape]
  by_cases hgt : c = '>'
  · subst hgt
    simp [unescape]
  by_cases hquote : c = '"' ∧ place = .quoted
  · obtain ⟨rfl, rfl⟩ := hquote
    simp [unescape]
  · rw [if_neg hamp, if_neg hlt, if_neg hgt, if_neg hquote]
    exact unescape_cons hamp rest

/-- **Reading undoes escaping.** -/
theorem unescape_flatMap_escapeChar (place : Place) (cs : List Char) :
    unescape (cs.flatMap (escapeChar place)) = cs := by
  induction cs with
  | nil => rfl
  | cons c cs ih => rw [List.flatMap_cons, unescape_escapeChar_append, ih]

theorem escape_inj {place : Place} {s t : String} : escape place s = escape place t ↔ s = t := by
  refine ⟨fun h => ?_, fun h => h ▸ rfl⟩
  have hread := congrArg (fun u : String => unescape u.toList) h
  simp only [toList_escape, unescape_flatMap_escapeChar] at hread
  exact String.toList_inj.1 hread

/-- The entities that stand for characters. -/
def entities : List String :=
  ["&amp;", "&lt;", "&gt;", "&quot;"]

/-- The characters that entities are made of. -/
def entityChars : List Char :=
  entities.flatMap String.toList

/-- What is written for a character belongs to an entity, or is the character itself and stands
for itself. -/
theorem mem_escapeChar {place : Place} {c d : Char} (h : d ∈ escapeChar place c) :
    d ∈ entityChars ∨
      d = c ∧ c ≠ '&' ∧ c ≠ '<' ∧ c ≠ '>' ∧ ¬ (c = '"' ∧ place = .quoted) := by
  unfold escapeChar at h
  split_ifs at h with hamp hlt hgt hquote
  · exact .inl (List.mem_flatMap_of_mem (by decide) h)
  · exact .inl (List.mem_flatMap_of_mem (by decide) h)
  · exact .inl (List.mem_flatMap_of_mem (by decide) h)
  · exact .inl (List.mem_flatMap_of_mem (by decide) h)
  · exact .inr ⟨List.mem_singleton.1 h, hamp, hlt, hgt, hquote⟩

theorem not_mem_escapeChar (place : Place) {c d : Char} (hd : d ∉ entityChars) (h : c ≠ d) :
    d ∉ escapeChar place c := by
  intro hmem
  rcases mem_escapeChar hmem with hentity | ⟨rfl, -⟩
  · exact hd hentity
  · exact h rfl

theorem escapeChar_of_plain (place : Place) {c : Char} (h : c ∉ ['&', '<', '>', '"']) :
    escapeChar place c = [c] := by
  simp only [List.mem_cons, List.not_mem_nil, or_false, not_or] at h
  obtain ⟨hamp, hlt, hgt, hquote⟩ := h
  rw [escapeChar, if_neg hamp, if_neg hlt, if_neg hgt, if_neg fun hq => hquote hq.1]

theorem not_bracket_of_mem_escaped {place : Place} {cs : List Char} {d : Char}
    (h : d ∈ cs.flatMap (escapeChar place)) : d ≠ '<' ∧ d ≠ '>' := by
  obtain ⟨c, -, hd⟩ := List.mem_flatMap.1 h
  rcases mem_escapeChar hd with hentity | ⟨rfl, -, hlt, hgt, -⟩
  · refine ⟨?_, ?_⟩
    all_goals
      rintro rfl
      exact absurd hentity (by decide)
  · exact ⟨hlt, hgt⟩

theorem ne_quote_of_mem_escaped {cs : List Char} {d : Char}
    (h : d ∈ cs.flatMap (escapeChar .quoted)) : d ≠ '"' := by
  obtain ⟨c, -, hd⟩ := List.mem_flatMap.1 h
  rcases mem_escapeChar hd with hentity | ⟨rfl, -, -, -, hquote⟩
  · rintro rfl
    exact absurd hentity (by decide)
  · simpa using hquote

/-! ### Ampersands -/

theorem ampersand_in_escapeChar {place : Place} {c : Char} {before rest : List Char}
    (h : escapeChar place c = before ++ '&' :: rest) :
    before = [] ∧ ∃ entity ∈ entities, entity.toList = '&' :: rest := by
  have honce : ∀ entity ∈ entities, '&' ∉ entity.toList.tail := by decide
  have hfront : ∀ entity ∈ entities, entity.toList = before ++ '&' :: rest →
      before = [] ∧ ∃ entity ∈ entities, entity.toList = '&' :: rest := by
    intro entity hentity hsplit
    have hbehind := honce entity hentity
    cases before with
    | nil => exact ⟨rfl, entity, hentity, hsplit⟩
    | cons d before =>
      rw [hsplit, List.cons_append, List.tail_cons] at hbehind
      exact absurd (List.mem_append_right _ List.mem_cons_self) hbehind
  unfold escapeChar at h
  split_ifs at h with hamp
  · exact hfront _ (by decide) h
  · exact hfront _ (by decide) h
  · exact hfront _ (by decide) h
  · exact hfront _ (by decide) h
  · -- a character that stands for itself is no ampersand
    cases before with
    | nil => exact absurd (List.cons.inj h).1 hamp
    | cons d before => simp at h

/-- **Every ampersand of an escaped text starts an entity.** -/
theorem entity_prefix_of_escaped {place : Place} {cs before rest : List Char}
    (h : cs.flatMap (escapeChar place) = before ++ '&' :: rest) :
    ∃ entity ∈ entities, entity.toList <+: '&' :: rest := by
  induction cs generalizing before with
  | nil => simp at h
  | cons c cs ih =>
    rw [List.flatMap_cons] at h
    rcases List.append_eq_append_iff.1 h with ⟨mid, -, hlater⟩ | ⟨mid, hfirst, hmid⟩
    · exact ih hlater
    · cases mid with
      | nil =>
        rw [List.nil_append] at hmid
        exact ih (hmid.symm.trans (List.nil_append _).symm)
      | cons d mid =>
        -- the ampersand belongs to the first character
        obtain ⟨rfl, rfl⟩ := List.cons.inj hmid
        obtain ⟨-, entity, hentity, hwhole⟩ := ampersand_in_escapeChar hfirst
        exact ⟨entity, hentity, hwhole ▸ List.prefix_append ('&' :: mid) _⟩

/-- **Escaping is undone by reading entities**, wherever the text stands: what was written is read
as the text itself, whatever it looks like. No bracket is left in what is written, between quotes
no quote, and no ampersand but in front of an entity; and texts are escaped piece by piece. -/
theorem escape_undone (place : Place) (s : String) :
    unescape (escape place s).toList = s.toList ∧
    (∀ c ∈ (escape place s).toList, c ≠ '<' ∧ c ≠ '>' ∧ (place = .quoted → c ≠ '"')) ∧
    (∀ before rest, (escape place s).toList = before ++ '&' :: rest →
      ∃ entity ∈ entities, entity.toList <+: '&' :: rest) ∧
    ∀ t, escape place (s ++ t) = escape place s ++ escape place t := by
  rw [toList_escape]
  refine ⟨unescape_flatMap_escapeChar place s.toList, fun d hd => ?_,
    fun before rest hsplit => entity_prefix_of_escaped hsplit, escape_append place s⟩
  obtain ⟨hopening, hclosing⟩ := not_bracket_of_mem_escaped hd
  refine ⟨hopening, hclosing, ?_⟩
  rintro rfl
  exact ne_quote_of_mem_escaped hd

example : (escape .content "&lt; \"<\"").toList = "&amp;lt; \"&lt;\"".toList ∧
    unescape (escape .content "&lt; \"<\"").toList = "&lt; \"<\"".toList := by
  decide

end Markup

end DiagnosticReport
