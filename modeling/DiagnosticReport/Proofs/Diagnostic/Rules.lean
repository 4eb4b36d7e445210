import DiagnosticReport.Diagnostic.Classification
import Mathlib.Data.List.Infix

/-!
# The rule that decides

The category of a text is decided by the first opening that fits, or else by the first phrase that
occurs. `Category.decision` keeps the place of this rule in its table, and
`Category.ofText_eq_category_decision` says that the category is read off it.

* No opening is the beginning of another one, so at most one of them fits
  (`Category.countP_opens_le_one`), and the order of the openings does not matter
  (`Category.ofTextBy_eq_of_perm`).
* When a text goes on, what fits it still fits. An opening keeps its decision
  (`Category.decision_append_of_opening`). So does a phrase, unless an earlier one comes in
  (`Category.decision_append_of_phrase`): no opening can come in, since no phrase occurs inside an
  opening.
-/

namespace DiagnosticReport

namespace Category

/-- Whether the words of a rule stand at the start of a text. -/
def opens (text : List Char) (rule : String × Category) : Bool :=
  rule.1.toList.isPrefixOf text

/-- Whether the words of a rule occur in a text. -/
def occurs (text : List Char) (rule : String × Category) : Bool :=
  Text.occursIn rule.1.toList text

/-- What decided the category of a text. -/
inductive Decision where
  /-- The opening at a place of its table. -/
  | opening (place : Nat)
  /-- The phrase at a place of its table. -/
  | phrase (place : Nat)
  /-- No rule fits. -/
  | unrecognized
  deriving DecidableEq

/-- The category that was decided on. -/
def Decision.category : Decision → Category
  | .opening place => (openings[place]?.map Prod.snd).getD .other
  | .phrase place => (phrases[place]?.map Prod.snd).getD .other
  | .unrecognized => .other

/-- What decides the category of a text. -/
def decision (text : String) : Decision :=
  match openings.findIdx? (opens text.toList) with
  | some place => .opening place
  | none =>
    match phrases.findIdx? (occurs text.toList) with
    | some place => .phrase place
    | none => .unrecognized

/-- The category of a text by another table of openings. -/
def ofTextBy (rules : List (String × Category)) (text : String) : Category :=
  ((byOpening? rules text.toList).or (byPhrase? phrases text.toList)).getD .other

variable {text : List Char} {rule : String × Category}

theorem opens_iff : opens text rule = true ↔ rule.1.toList <+: text :=
  List.isPrefixOf_iff_prefix

theorem occurs_iff :
    occurs text rule = true ↔ ∃ before rest, text = before ++ rule.1.toList ++ rest :=
  Text.occursIn_iff

/-- **The category is read off the decision.** -/
theorem ofText_eq_category_decision (text : String) : ofText text = (decision text).category := by
  have hopening : byOpening? openings text.toList =
      ((openings.findIdx? (opens text.toList)).bind (openings[·]?)).map Prod.snd :=
    congrArg (Option.map Prod.snd) List.find?_eq_bind_findIdx?_getElem?
  have hphrase : byPhrase? phrases text.toList =
      ((phrases.findIdx? (occurs text.toList)).bind (phrases[·]?)).map Prod.snd :=
    congrArg (Option.map Prod.snd) List.find?_eq_bind_findIdx?_getElem?
  rw [ofText, hopening, hphrase, decision]
  cases hplace : openings.findIdx? (opens text.toList) with
  | some place =>
    -- the place is one of the table
    obtain ⟨hlt, -⟩ := List.findIdx?_eq_some_iff_getElem.1 hplace
    simp [Decision.category, hlt]
  | none =>
    cases phrases.findIdx? (occurs text.toList) <;> rfl

theorem decision_eq_opening_iff {text : String} {place : Nat} :
    decision text = .opening place ↔ openings.findIdx? (opens text.toList) = some place := by
  unfold decision
  cases openings.findIdx? (opens text.toList) with
  | some i => simp
  | none => cases phrases.findIdx? (occurs text.toList) <;> simp

theorem decision_eq_phrase_iff {text : String} {place : Nat} :
    decision text = .phrase place ↔ openings.findIdx? (opens text.toList) = none ∧
      phrases.findIdx? (occurs text.toList) = some place := by
  unfold decision
  cases openings.findIdx? (opens text.toList) with
  | some i => simp
  | none => cases phrases.findIdx? (occurs text.toList) <;> simp

/-! ### At most one opening -/

theorem openings_apart : openings.Pairwise fun rule rule' =>
    ¬ rule.1.toList <+: rule'.1.toList ∧ ¬ rule'.1.toList <+: rule.1.toList := by
  decide +kernel

theorem pairwise_not_opens (text : List Char) :
    openings.Pairwise fun rule rule' => ¬ (opens text rule = true ∧ opens text rule' = true) := by
  refine openings_apart.imp fun hapart hboth => ?_
  rcases List.prefix_or_prefix_of_prefix (opens_iff.1 hboth.1) (opens_iff.1 hboth.2) with h | h
  · exact hapart.1 h
  · exact hapart.2 h

/-- **At most one opening fits a text.** -/
theorem countP_opens_le_one (text : List Char) : openings.countP (opens text) ≤ 1 := by
  rw [List.countP_eq_length_filter]
  have hpairwise := (pairwise_not_opens text).filter (opens text)
  have hfits : ∀ rule ∈ openings.filter (opens text), opens text rule = true :=
    fun rule hrule => (List.mem_filter.1 hrule).2
  match openings.filter (opens text), hpairwise, hfits with
  | [], _, _ => exact Nat.zero_le 1
  | [_], _, _ => exact Nat.le_refl 1
  | rule :: rule' :: _, hpairwise, hfits =>
    have hboth := (List.pairwise_cons.1 hpairwise).1 rule' List.mem_cons_self
    exact absurd ⟨hfits rule (by simp), hfits rule' (by simp)⟩ hboth

theorem find?_eq_of_perm {α : Type} {p : α → Bool} {xs ys : List α} (hperm : xs.Perm ys)
    (hle : ys.countP p ≤ 1) : xs.find? p = ys.find? p := by
  rw [List.countP_eq_length_filter] at hle
  have hfilter := hperm.filter p
  rw [← List.head?_filter, ← List.head?_filter]
  match ys.filter p, hle, hfilter with
  | [], _, hfilter => rw [hfilter.eq_nil]
  | [y], _, hfilter => rw [List.perm_singleton.1 hfilter]

/-- **The order of the openings does not matter.** -/
theorem ofTextBy_eq_of_perm {rules : List (String × Category)} (h : rules.Perm openings)
    (text : String) : ofTextBy rules text = ofText text := by
  have hfind : rules.find? (opens text.toList) = openings.find? (opens text.toList) :=
    find?_eq_of_perm h (countP_opens_le_one text.toList)
  have hopening : byOpening? rules text.toList = byOpening? openings text.toList :=
    congrArg (Option.map Prod.snd) hfind
  rw [ofTextBy, hopening, ofText]

/-! ### Texts that go on -/

theorem opens_append (h : opens text rule = true) (more : List Char) :
    opens (text ++ more) rule = true :=
  opens_iff.2 ((opens_iff.1 h).trans (List.prefix_append text more))

theorem occurs_append (h : occurs text rule = true) (more : List Char) :
    occurs (text ++ more) rule = true := by
  obtain ⟨before, rest, rfl⟩ := occurs_iff.1 h
  exact occurs_iff.2 ⟨before, rest ++ more, by simp⟩

theorem findIdx?_opens_append {place : Nat} (h : openings.findIdx? (opens text) = some place)
    (more : List Char) : openings.findIdx? (opens (text ++ more)) = some place := by
  obtain ⟨hlt, hfits, -⟩ := List.findIdx?_eq_some_iff_getElem.1 h
  refine List.findIdx?_eq_some_iff_getElem.2 ⟨hlt, opens_append hfits more, fun j hj hearlier => ?_⟩
  have happart := List.pairwise_iff_getElem.1 (pairwise_not_opens (text ++ more)) j place
    (Nat.lt_trans hj hlt) hlt hj
  exact happart ⟨hearlier, opens_append hfits more⟩

/-- No phrase occurs inside an opening. -/
theorem occursIn_opening_eq_false : ∀ rule ∈ openings, ∀ phrase ∈ phrases,
    Text.occursIn phrase.1.toList rule.1.toList = false := by
  decide +kernel

/-- A text with a phrase in it that no opening fits is not the beginning of one that an opening
fits: it would be the beginning of the opening, with the phrase in it. -/
theorem findIdx?_opens_append_eq_none {phrase : String × Category} (hphrase : phrase ∈ phrases)
    (hoccurs : occurs text phrase = true) (h : openings.findIdx? (opens text) = none)
    (more : List Char) : openings.findIdx? (opens (text ++ more)) = none := by
  rw [List.findIdx?_eq_none_iff] at h ⊢
  intro rule hrule
  rw [Bool.eq_false_iff]
  intro hopens
  rcases List.prefix_or_prefix_of_prefix (opens_iff.1 hopens) (List.prefix_append text more) with
    hbefore | ⟨rest, hrest⟩
  · have hnot := h rule hrule
    rw [opens_iff.2 hbefore] at hnot
    cases hnot
  · have hinside : Text.occursIn phrase.1.toList rule.1.toList = true :=
      hrest ▸ occurs_append hoccurs rest
    rw [occursIn_opening_eq_false rule hrule phrase hphrase] at hinside
    cases hinside

theorem decision_append_of_opening {text : String} {place : Nat}
    (h : decision text = .opening place) (more : String) :
    decision (text ++ more) = .opening place := by
  rw [decision_eq_opening_iff] at h ⊢
  rw [String.toList_append]
  exact findIdx?_opens_append h more.toList

/-- A phrase keeps its decision, unless an earlier phrase comes in. -/
theorem decision_append_of_phrase {text : String} {place : Nat}
    (h : decision text = .phrase place) (more : String) :
    ∃ earlier ≤ place, decision (text ++ more) = .phrase earlier := by
  obtain ⟨hnone, hplace⟩ := decision_eq_phrase_iff.1 h
  obtain ⟨hlt, hoccurs, -⟩ := List.findIdx?_eq_some_iff_getElem.1 hplace
  obtain ⟨earlier, hle, hearlier⟩ :=
    List.findIdx?_eq_some_le_of_findIdx?_eq_some
      (fun _ _ hrule => occurs_append hrule more.toList) hplace
  refine ⟨earlier, hle, decision_eq_phrase_iff.2 ?_⟩
  rw [String.toList_append]
  exact ⟨findIdx?_opens_append_eq_none (List.getElem_mem hlt) hoccurs hnone more.toList, hearlier⟩

theorem ofText_append_of_opening {text : String} {place : Nat}
    (h : decision text = .opening place) (more : String) : ofText (text ++ more) = ofText text := by
  rw [ofText_eq_category_decision, ofText_eq_category_decision, h,
    decision_append_of_opening h more]

/-! ### What a text that goes on is about -/

theorem ne_other_of_mem : ∀ rule ∈ openings ++ phrases, rule.2 ≠ .other := by
  decide

theorem findingClass_of_mem_phrases : ∀ phrase ∈ phrases, phrase.2.findingClass = .info := by
  decide

theorem exists_phrase_of_decision {text : String} {place : Nat}
    (h : decision text = .phrase place) : ∃ phrase ∈ phrases, ofText text = phrase.2 := by
  obtain ⟨hlt, -⟩ := List.findIdx?_eq_some_iff_getElem.1 (decision_eq_phrase_iff.1 h).2
  refine ⟨phrases[place], List.getElem_mem hlt, ?_⟩
  rw [ofText_eq_category_decision, h, Decision.category, List.getElem?_eq_getElem hlt]
  rfl

/-- **What a text is recognized as lasts.** Whatever is appended to a text that some rule fits, some
rule fits it, and it still tells of a failure or still does not. -/
theorem ofText_append_of_ne_other {text : String} (h : ofText text ≠ .other) (more : String) :
    ofText (text ++ more) ≠ .other ∧
      (ofText (text ++ more)).findingClass = (ofText text).findingClass := by
  cases hdecision : decision text with
  | opening place =>
    rw [ofText_append_of_opening hdecision more]
    exact ⟨h, rfl⟩
  | phrase place =>
    obtain ⟨earlier, -, hearlier⟩ := decision_append_of_phrase hdecision more
    obtain ⟨phrase, hphrase, hcategory⟩ := exists_phrase_of_decision hdecision
    obtain ⟨phrase', hphrase', hcategory'⟩ := exists_phrase_of_decision hearlier
    rw [hcategory, hcategory', findingClass_of_mem_phrases phrase hphrase,
      findingClass_of_mem_phrases phrase' hphrase']
    exact ⟨ne_other_of_mem phrase' (List.mem_append_right _ hphrase'), rfl⟩
  | unrecognized =>
    rw [ofText_eq_category_decision, hdecision] at h
    exact absurd rfl h

/-- **Classification is unambiguous and lasts.**

* At most one opening fits a text, so that the openings may be tried in any order.
* The category of a text is that of the rule that decides: the opening that fits, or else the first
  phrase that occurs.
* Whatever is appended to a text, an opening that decided still decides; a phrase that decided still
  does, or an earlier one does instead, but no opening.
* So a text that was recognized stays recognized, and its class stays the same. -/
theorem decision_lasts :
    (∀ text : String, openings.countP (opens text.toList) ≤ 1) ∧
    (∀ rules, rules.Perm openings → ∀ text, ofTextBy rules text = ofText text) ∧
    (∀ text, ofText text = (decision text).category) ∧
    (∀ text more : String, ∀ place,
      (decision text = .opening place →
        decision (text ++ more) = .opening place ∧ ofText (text ++ more) = ofText text) ∧
      (decision text = .phrase place →
        ∃ earlier ≤ place, decision (text ++ more) = .phrase earlier)) ∧
    ∀ text more : String, ofText text ≠ .other →
      ofText (text ++ more) ≠ .other ∧
        (ofText (text ++ more)).findingClass = (ofText text).findingClass := by
  refine ⟨fun text => countP_opens_le_one text.toList, fun rules h => ofTextBy_eq_of_perm h,
    ofText_eq_category_decision, fun text more place => ⟨fun h => ?_, fun h => ?_⟩,
    fun text more h => ofText_append_of_ne_other h more⟩
  · exact ⟨decision_append_of_opening h more, ofText_append_of_opening h more⟩
  · exact decision_append_of_phrase h more

end Category

end DiagnosticReport
