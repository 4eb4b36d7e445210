import DiagnosticReport.Diagnostic.Classification
import DiagnosticReport.Diagnostic.ReportedWarnings
import Mathlib.Data.List.Infix

/-!
# Subjects and categories

The words that texts about calls of external functions start with are written down twice: among
the rules of the categories, and where the subject of a warning is found. Both lead to the same
texts (`OpensExternalCall`): exactly these share one subject (`warningSubject_eq_opening_iff`), and
exactly these belong to `Category.callingExternal` (`Category.ofText_eq_callingExternal_iff`), since
no rule with a higher priority fits any of them. So warnings with the same subject belong to the
same category (`Category.ofText_warningSubject`).
-/

namespace DiagnosticReport

/-- A text that tells of the call of an external function. -/
def OpensExternalCall (text : String) : Prop :=
  "calling external".toList <+: text.toList

/-! ### Subjects -/

theorem warningSubject_of_opens {text : String} (h : OpensExternalCall text) :
    warningSubject text = externalCallOpening :=
  if_pos (List.isPrefixOf_iff_prefix.2 h)

theorem warningSubject_of_not_opens {text : String} (h : ¬ OpensExternalCall text) :
    warningSubject text = text :=
  if_neg fun hopens => h (List.isPrefixOf_iff_prefix.1 hopens)

theorem warningSubject_eq_opening_iff {text : String} :
    warningSubject text = externalCallOpening ↔ OpensExternalCall text := by
  refine ⟨fun hsubject => ?_, warningSubject_of_opens⟩
  by_contra hnot
  rw [warningSubject_of_not_opens hnot] at hsubject
  exact hnot (hsubject ▸ List.prefix_refl _)

/-- **Which texts have the same subject.** -/
theorem warningSubject_eq_iff {a b : String} :
    warningSubject a = warningSubject b ↔ a = b ∨ OpensExternalCall a ∧ OpensExternalCall b := by
  constructor
  · intro hsame
    by_cases ha : OpensExternalCall a
    · have hb : OpensExternalCall b := by
        rw [← warningSubject_eq_opening_iff, ← hsame]
        exact warningSubject_of_opens ha
      exact .inr ⟨ha, hb⟩
    · have hb : ¬ OpensExternalCall b := fun hb => ha <| by
        rw [← warningSubject_eq_opening_iff, hsame]
        exact warningSubject_of_opens hb
      rw [warningSubject_of_not_opens ha, warningSubject_of_not_opens hb] at hsame
      exact .inl hsame
  · rintro (rfl | ⟨ha, hb⟩)
    · rfl
    · rw [warningSubject_of_opens ha, warningSubject_of_opens hb]

/-! ### Categories -/

namespace Category

/-- **The rule that decided.** The category of a text is that of a rule whose words stand at its
start or somewhere in it, or no rule fits. -/
theorem ofText_cases (text : String) :
    (∃ words, (words, ofText text) ∈ openings ∧ words.toList <+: text.toList) ∨
    (∃ words, (words, ofText text) ∈ phrases ∧ Text.occursIn words.toList text.toList = true) ∨
    ofText text = .other := by
  unfold ofText byOpening? byPhrase?
  cases hopening : openings.find? fun rule => rule.1.toList.isPrefixOf text.toList with
  | some rule =>
    have hfits := List.find?_some hopening
    exact .inl ⟨rule.1, List.mem_of_find?_eq_some hopening, List.isPrefixOf_iff_prefix.1 hfits⟩
  | none =>
    cases hphrase : phrases.find? fun rule => Text.occursIn rule.1.toList text.toList with
    | some rule =>
      have hfits := List.find?_some hphrase
      exact .inr (.inl ⟨rule.1, List.mem_of_find?_eq_some hphrase, hfits⟩)
    | none => exact .inr (.inr rfl)

theorem ofText_of_opens {text : String} (h : OpensExternalCall text) :
    ofText text = .callingExternal := by
  obtain ⟨rest, hrest⟩ := h
  -- no rule in front of theirs fits, since its words start with another character
  have hopening : byOpening? openings text.toList = some .callingExternal := by
    rw [← hrest]
    rfl
  rw [ofText, hopening, Option.some_or, Option.getD_some]

/-- **The category of the calls of external functions** holds the texts that tell of one, and no
others. -/
theorem ofText_eq_callingExternal_iff {text : String} :
    ofText text = .callingExternal ↔ OpensExternalCall text := by
  refine ⟨fun hcategory => ?_, ofText_of_opens⟩
  rcases ofText_cases text with ⟨words, hrule, hfits⟩ | ⟨words, hrule, -⟩ | hother
  · -- it is the category of one rule only
    rw [hcategory] at hrule
    have hwords : words = "calling external" := by simpa [openings] using hrule
    rwa [hwords] at hfits
  · rw [hcategory] at hrule
    simp [phrases] at hrule
  · rw [hcategory] at hother
    cases hother

/-- **The subject of a warning decides its category.** -/
theorem ofText_warningSubject (text : String) : ofText (warningSubject text) = ofText text := by
  by_cases h : OpensExternalCall text
  · rw [warningSubject_of_opens h, ofText_of_opens h]
    exact ofText_of_opens (List.prefix_refl _)
  · rw [warningSubject_of_not_opens h]

theorem ofText_eq_of_warningSubject_eq {a b : String} (h : warningSubject a = warningSubject b) :
    ofText a = ofText b := by
  rw [← ofText_warningSubject a, h, ofText_warningSubject b]

end Category

end DiagnosticReport
