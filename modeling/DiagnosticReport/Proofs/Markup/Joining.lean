import DiagnosticReport.Markup.Join

/-!
# Joined parts

Whether a separator is due in front of a part is read off what has been joined so far, not off the
place of the part in the list. So `joinStep` treats what has been joined like any other part: the
empty text is neutral on either side (`joinStep_empty`, `empty_joinStep`), and it does not matter
which parts are joined first (`joinStep_assoc`).

* `foldl_joinStep` : further parts come behind what has been joined as if they were one part.
* `joinParts_append` : a list can be joined in pieces.
* `joinParts_eq_empty_iff` : nothing is joined exactly if there is nothing to join.
* `joinParts_eq_intercalate`, `joinParts_append_separator` : where the separators stand, between the
  parts that are not empty, or behind each of them if one more is added.

`joining_flattens` says of every separator, the empty one too, that joining drops empty parts and
that joins inside a join are flat.
-/

namespace DiagnosticReport

namespace Markup

variable {separator joined part : String} {parts : List String}

/-! ### One step -/

@[simp] theorem empty_joinStep (separator part : String) : joinStep separator "" part = part := by
  by_cases hpart : part = ""
  · rw [hpart, joinStep_empty]
  · rw [joinStep, if_neg hpart, if_pos rfl]

theorem joinStep_of_ne_empty (hjoined : joined ≠ "") (hpart : part ≠ "") :
    joinStep separator joined part = joined ++ separator ++ part := by
  rw [joinStep, if_neg hpart, if_neg hjoined]

theorem joinStep_eq_empty_iff : joinStep separator joined part = "" ↔ joined = "" ∧ part = "" := by
  by_cases hpart : part = ""
  · simp [hpart]
  by_cases hjoined : joined = ""
  · simp [hjoined]
  · rw [joinStep_of_ne_empty hjoined hpart]
    simp [hjoined]

/-- **It does not matter which parts are joined first.** -/
theorem joinStep_assoc (separator first second third : String) :
    joinStep separator (joinStep separator first second) third =
      joinStep separator first (joinStep separator second third) := by
  by_cases hfirst : first = ""
  · rw [hfirst, empty_joinStep, empty_joinStep]
  by_cases hsecond : second = ""
  · rw [hsecond, joinStep_empty, empty_joinStep]
  by_cases hthird : third = ""
  · rw [hthird, joinStep_empty, joinStep_empty]
  have hfront : joinStep separator first second ≠ "" := fun h =>
    hfirst (joinStep_eq_empty_iff.1 h).1
  have hback : joinStep separator second third ≠ "" := fun h =>
    hsecond (joinStep_eq_empty_iff.1 h).1
  rw [joinStep_of_ne_empty hfront hthird, joinStep_of_ne_empty hfirst hback,
    joinStep_of_ne_empty hfirst hsecond, joinStep_of_ne_empty hsecond hthird]
  simp only [String.append_assoc]

instance (separator : String) : Std.Associative (joinStep separator) :=
  ⟨joinStep_assoc separator⟩

/-! ### Lists of parts -/

/-- Further parts come behind what has been joined as if they were one part. -/
theorem foldl_joinStep (separator joined : String) (parts : List String) :
    parts.foldl (joinStep separator) joined =
      joinStep separator joined (joinParts separator parts) := by
  calc parts.foldl (joinStep separator) joined
      = parts.foldl (joinStep separator) (joinStep separator joined "") := by rw [joinStep_empty]
    _ = joinStep separator joined (joinParts separator parts) := List.foldl_assoc

theorem joinParts_cons (separator part : String) (parts : List String) :
    joinParts separator (part :: parts) =
      joinStep separator part (joinParts separator parts) := by
  rw [joinParts, List.foldl_cons, empty_joinStep, foldl_joinStep]

/-- **A list can be joined in pieces.** -/
theorem joinParts_append (separator : String) (parts later : List String) :
    joinParts separator (parts ++ later) =
      joinStep separator (joinParts separator parts) (joinParts separator later) := by
  rw [joinParts, List.foldl_append, foldl_joinStep, ← joinParts]

/-- **Nothing is joined** exactly if there is nothing to join. -/
theorem joinParts_eq_empty_iff : joinParts separator parts = "" ↔ ∀ part ∈ parts, part = "" := by
  induction parts with
  | nil => simp
  | cons part parts ih => rw [joinParts_cons, joinStep_eq_empty_iff, ih, List.forall_mem_cons]

/-- **The separator stands between the parts that are not empty.** -/
theorem joinParts_eq_intercalate (separator : String) (parts : List String) :
    joinParts separator parts = separator.intercalate (parts.filter (· ≠ "")) := by
  induction parts with
  | nil => simp
  | cons part parts ih =>
    rw [joinParts_cons]
    by_cases hpart : part = ""
    · rw [hpart, empty_joinStep, ih, List.filter_cons_of_neg (by simp)]
    rw [List.filter_cons_of_pos (by simpa using hpart)]
    by_cases hrest : parts.filter (· ≠ "") = []
    · -- the last part that is not empty has no separator behind it
      rw [ih, hrest, String.intercalate_nil, joinStep_empty, String.intercalate_singleton]
    · have hjoined : joinParts separator parts ≠ "" := by
        rw [Ne, joinParts_eq_empty_iff]
        simpa using hrest
      rw [joinStep_of_ne_empty hpart hjoined, ih, String.intercalate_cons_of_ne_nil hrest]

/-- With one more separator at the end, every text has a separator behind it. -/
theorem intercalate_append_separator {texts : List String} (h : texts ≠ []) :
    separator.intercalate texts ++ separator = String.join (texts.map (· ++ separator)) := by
  induction texts with
  | nil => exact absurd rfl h
  | cons text texts ih =>
    by_cases hrest : texts = []
    · simp [hrest]
    · rw [String.intercalate_cons_of_ne_nil hrest, String.append_assoc, ih hrest, List.map_cons,
        String.join_cons]

/-- **Joined parts with a separator behind them** are the parts that are not empty, each with a
separator behind it, provided that there is such a part. -/
theorem joinParts_append_separator (h : parts.filter (· ≠ "") ≠ []) :
    joinParts separator parts ++ separator =
      String.join ((parts.filter (· ≠ "")).map (· ++ separator)) := by
  rw [joinParts_eq_intercalate, intercalate_append_separator h]

/-- **Joining drops empty parts and flattens**: the separator stands between the parts that are not
empty, in their order and nowhere else; lists that have been joined one by one are joined to the
same text as all their parts at once; and only empty parts leave nothing. -/
theorem joining_flattens (separator : String) (parts : List String) :
    joinParts separator parts = separator.intercalate (parts.filter (· ≠ "")) ∧
    (∀ later, joinParts separator (parts ++ later) =
      joinParts separator [joinParts separator parts, joinParts separator later]) ∧
    (joinParts separator parts = "" ↔ ∀ part ∈ parts, part = "") := by
  refine ⟨joinParts_eq_intercalate separator parts, fun later => ?_, joinParts_eq_empty_iff⟩
  calc joinParts separator (parts ++ later)
      = joinStep separator (joinParts separator parts) (joinParts separator later) :=
        joinParts_append separator parts later
    _ = joinParts separator [joinParts separator parts, joinParts separator later] := by
        rw [joinParts_cons, joinParts_cons, joinParts_nil, joinStep_empty]

example : joinParts " " ["", "abra", "", "cadabra", ""] = "abra cadabra" := by
  decide

end Markup

end DiagnosticReport
