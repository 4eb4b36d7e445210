import Mathlib.Data.List.Infix
import DiagnosticReport.Text.Blank
import DiagnosticReport.Text.Cut

/-!
# Cutting at a mark, and visible ends

`Text.cut?` takes a text apart at the first occurrence of a mark. If the first character of the
mark does not come again in it, occurrences of the mark cannot overlap; then the cut is the only
way to write the text as something without the mark, the mark, and a rest
(`Text.cut?_eq_some_iff`).

A text ends visibly if its last character is not blank (`Text.EndsVisibly`). What trimming leaves
ends visibly (`Text.endsVisibly_trimEnd`), and so does what is left of such a text behind a blank
(`Text.EndsVisibly.of_append_blank`); in particular something is left. Blanks that are added at the
end make no difference to what trimming leaves (`Text.trimEnd_append_blanks`).
-/

namespace DiagnosticReport

namespace Text

/-! ### The first occurrence of a mark -/

variable {m : Char} {ms : List Char}

/-- In front of a mark that cannot overlap itself, the mark starts only where it occurs. -/
theorem after?_cons_append_eq_none (hm : m ∉ ms) {c : Char} {before rest : List Char}
    (h : occursIn (m :: ms) (c :: before) = false) :
    after? (m :: ms) (c :: before ++ (m :: ms) ++ rest) = none := by
  by_contra hsome
  obtain ⟨rest', hafter⟩ := Option.ne_none_iff_exists'.1 hsome
  have htext : c :: before ++ ((m :: ms) ++ rest) = (m :: ms) ++ rest' := by
    rw [← List.append_assoc]
    exact after?_eq_some_iff.1 hafter
  rcases List.append_eq_append_iff.1 htext with ⟨mid, hmark, hrest⟩ | ⟨mid, hbefore, -⟩
  · -- the two marks overlap: the second one starts inside the first
    cases mid with
    | nil =>
      have hoccurs : occursIn (m :: ms) (c :: before) = true :=
        occursIn_iff.2 ⟨[], [], by simpa using hmark.symm⟩
      rw [h] at hoccurs
      cases hoccurs
    | cons d mid =>
      have hd : m = d := (List.cons.inj hrest).1
      have hms : ms = before ++ d :: mid := (List.cons.inj hmark).2
      exact hm (by rw [hms, hd]; simp)
  · have hoccurs : occursIn (m :: ms) (c :: before) = true :=
      occursIn_iff.2 ⟨[], mid, by simpa using hbefore⟩
    rw [h] at hoccurs
    cases hoccurs

theorem occursIn_eq_false_of_cons {part cs : List Char} {c : Char}
    (h : occursIn part (c :: cs) = false) : occursIn part cs = false := by
  rw [occursIn, Bool.or_eq_false_iff] at h
  exact h.2

theorem occursIn_eq_false_of_cut? {text before rest : List Char}
    (h : cut? (m :: ms) text = some (before, rest)) : occursIn (m :: ms) before = false := by
  induction text generalizing before with
  | nil => simp [cut?, after?] at h
  | cons c cs ih =>
    rw [cut?] at h
    split at h
    · next r hr =>
      simp only [Option.some.injEq, Prod.mk.injEq] at h
      obtain ⟨rfl, -⟩ := h
      rfl
    · next hnone =>
      obtain ⟨⟨b, r⟩, hcut, heq⟩ := Option.map_eq_some_iff.1 h
      simp only [Prod.mk.injEq] at heq
      obtain ⟨rfl, rfl⟩ := heq
      have hcs : cs = b ++ (m :: ms) ++ r := eq_append_of_cut?_eq_some hcut
      rw [occursIn, ih hcut, Bool.or_false]
      -- an occurrence at the very front would have been cut at
      by_contra hfront
      have hstarts : (m :: ms) <+: c :: b :=
        List.isPrefixOf_iff_prefix.1 (Bool.not_eq_false _ ▸ hfront)
      obtain ⟨mid, hmid⟩ := hstarts
      have hafter : after? (m :: ms) (c :: cs) = some (mid ++ (m :: ms) ++ r) := by
        rw [after?_eq_some_iff, hcs, ← List.append_assoc, ← List.append_assoc, hmid,
          List.cons_append, List.cons_append]
      rw [hafter] at hnone
      cases hnone

/-- **The cut at a mark that cannot overlap itself.** It is the one way to write a text as
something without the mark, the mark, and a rest. -/
theorem cut?_eq_some_iff (hm : m ∉ ms) {text before rest : List Char} :
    cut? (m :: ms) text = some (before, rest) ↔
      text = before ++ (m :: ms) ++ rest ∧ occursIn (m :: ms) before = false := by
  constructor
  · intro h
    exact ⟨eq_append_of_cut?_eq_some h, occursIn_eq_false_of_cut? h⟩
  · rintro ⟨rfl, hbefore⟩
    induction before with
    | nil =>
      have hafter : after? (m :: ms) (m :: (ms ++ rest)) = some rest := after?_eq_some_iff.2 rfl
      show cut? (m :: ms) (m :: (ms ++ rest)) = some ([], rest)
      rw [cut?, hafter]
    | cons c before ih =>
      -- the mark does not start here, not even with the help of what follows
      have hnone : after? (m :: ms) (c :: before ++ (m :: ms) ++ rest) = none :=
        after?_cons_append_eq_none hm hbefore
      have hrest := ih (occursIn_eq_false_of_cons hbefore)
      show cut? (m :: ms) (c :: (before ++ (m :: ms) ++ rest)) = some (c :: before, rest)
      rw [cut?]
      simp only [List.cons_append] at hnone
      simp only [List.cons_append, List.append_assoc] at hnone hrest ⊢
      rw [hnone, hrest]
      rfl

theorem occursIn_eq_false_iff {part text : List Char} :
    occursIn part text = false ↔ ¬ part <:+: text := by
  have hiff : occursIn part text = true ↔ part <:+: text := by
    rw [occursIn_iff]
    exact exists₂_congr fun before rest => eq_comm
  rw [← hiff, Bool.not_eq_true]

theorem occursIn_eq_false_of_notMem {part cs : List Char} {c : Char} (hpart : c ∈ part)
    (hcs : c ∉ cs) : occursIn part cs = false := by
  by_contra h
  obtain ⟨before, rest, rfl⟩ := occursIn_iff.1 (by simpa using h)
  exact hcs (by simp [hpart])

/-! ### Visible ends -/

/-- The last character of a text is not blank; there is one. -/
def EndsVisibly (cs : List Char) : Prop :=
  ∃ c, cs.getLast? = some c ∧ isBlank c = false

theorem EndsVisibly.ne_nil {cs : List Char} (h : EndsVisibly cs) : cs ≠ [] := by
  rintro rfl
  obtain ⟨c, hc, -⟩ := h
  cases hc

theorem endsVisibly_trimEnd {cs : List Char} (h : trimEnd cs ≠ []) : EndsVisibly (trimEnd cs) :=
  ⟨(trimEnd cs).getLast h, List.getLast?_eq_some_getLast h, isBlank_getLast_trimEnd h⟩

theorem EndsVisibly.trimEnd_eq {cs : List Char} (h : EndsVisibly cs) : trimEnd cs = cs := by
  obtain ⟨c, hc, hvisible⟩ := h
  obtain ⟨front, rfl⟩ := List.getLast?_eq_some_iff.1 hc
  simp [trimEnd, hvisible]

theorem trimEnd_append_blanks {blanks : List Char} (h : blanks.all isBlank = true)
    (cs : List Char) : trimEnd (cs ++ blanks) = trimEnd cs := by
  have hblank : ∀ c ∈ blanks.reverse, isBlank c = true := by
    simpa using List.all_eq_true.1 h
  rw [trimEnd, List.reverse_append, List.dropWhile_append_of_pos hblank, trimEnd]

theorem EndsVisibly.append {rest : List Char} (h : EndsVisibly rest) (front : List Char) :
    EndsVisibly (front ++ rest) := by
  obtain ⟨c, hc, hvisible⟩ := h
  exact ⟨c, by rw [List.getLast?_append, hc]; rfl, hvisible⟩

theorem EndsVisibly.of_append_blank {front rest : List Char} {b : Char} (hb : isBlank b = true)
    (h : EndsVisibly (front ++ b :: rest)) : EndsVisibly rest := by
  obtain ⟨c, hc, hvisible⟩ := h
  rw [List.getLast?_append, List.getLast?_cons] at hc
  cases hlast : rest.getLast? with
  | none =>
    -- then the last character is the blank
    have hbc : b = c := by simpa [hlast] using hc
    rw [← hbc, hb] at hvisible
    cases hvisible
  | some d =>
    have hdc : d = c := by simpa [hlast] using hc
    exact ⟨c, by rw [hlast, hdc], hvisible⟩

end Text

end DiagnosticReport
