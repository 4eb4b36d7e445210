/-!
# Cutting texts

Three ways to look at a text through a shorter one: what follows it at the front (`after?`),
what stands before and after its first occurrence (`cut?`), and whether it occurs at all
(`occursIn`).
-/

namespace DiagnosticReport

namespace Text

/-- What follows `front` in a text that starts with it. -/
def after? (front text : List Char) : Option (List Char) :=
  if front.isPrefixOf text then some (text.drop front.length) else none

theorem after?_eq_some_iff {front text rest : List Char} :
    after? front text = some rest ↔ text = front ++ rest := by
  unfold after?
  split
  · next h =>
    obtain ⟨r, rfl⟩ := List.isPrefixOf_iff_prefix.1 h
    simp
  · next h =>
    refine ⟨fun h' => by simp at h', fun h' => ?_⟩
    exact absurd (List.isPrefixOf_iff_prefix.2 ⟨rest, h'.symm⟩) h

/-- What stands before and after the first occurrence of `mark`. -/
def cut? (mark : List Char) : List Char → Option (List Char × List Char)
  | [] => (after? mark []).map fun rest => ([], rest)
  | c :: cs =>
    match after? mark (c :: cs) with
    | some rest => some ([], rest)
    | none => (cut? mark cs).map fun (before, rest) => (c :: before, rest)

/-- Whether `part` occurs in a text, at any place. -/
def occursIn (part : List Char) : List Char → Bool
  | [] => part.isEmpty
  | c :: cs => part.isPrefixOf (c :: cs) || occursIn part cs

/-- Cutting loses nothing but the mark. -/
theorem eq_append_of_cut?_eq_some {mark text before rest : List Char}
    (h : cut? mark text = some (before, rest)) : text = before ++ mark ++ rest := by
  induction text generalizing before rest with
  | nil =>
    obtain ⟨r, hr, heq⟩ := Option.map_eq_some_iff.1 h
    simp only [Prod.mk.injEq] at heq
    obtain ⟨rfl, rfl⟩ := heq
    simpa using after?_eq_some_iff.1 hr
  | cons c cs ih =>
    rw [cut?] at h
    split at h
    · next r hr =>
      simp only [Option.some.injEq, Prod.mk.injEq] at h
      obtain ⟨rfl, rfl⟩ := h
      simpa using after?_eq_some_iff.1 hr
    · obtain ⟨⟨b, r⟩, hbr, heq⟩ := Option.map_eq_some_iff.1 h
      simp only [Prod.mk.injEq] at heq
      obtain ⟨rfl, rfl⟩ := heq
      rw [ih hbr]
      simp

/-- A text occurs in another exactly if that one has it in its middle. -/
theorem occursIn_iff {part text : List Char} :
    occursIn part text = true ↔ ∃ before rest, text = before ++ part ++ rest := by
  induction text with
  | nil => simp [occursIn]
  | cons c cs ih =>
    rw [occursIn, Bool.or_eq_true, ih, List.isPrefixOf_iff_prefix]
    constructor
    · rintro (⟨r, hr⟩ | ⟨b, r, rfl⟩)
      · exact ⟨[], r, by simpa using hr.symm⟩
      · exact ⟨c :: b, r, by simp⟩
    · rintro ⟨b, r, h⟩
      cases b with
      | nil => exact .inl ⟨r, by simpa using h.symm⟩
      | cons d b =>
        simp only [List.cons_append, List.cons.injEq] at h
        exact .inr ⟨b, r, h.2⟩

end Text

end DiagnosticReport
