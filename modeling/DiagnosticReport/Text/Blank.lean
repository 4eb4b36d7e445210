/-!
# Blank characters

The white space of Unicode (property `White_Space`) and the trimming that follows from it.
`trimEnd` drops the longest blank end of a text: what it drops is blank (`exists_trimEnd_append`)
and what it leaves does not end in a blank (`isBlank_getLast_trimEnd`).
-/

namespace DiagnosticReport

namespace Text

/-- The characters with the Unicode property `White_Space`. -/
def isBlank (c : Char) : Bool :=
  let n := c.toNat
  (0x09 ≤ n && n ≤ 0x0D) || n == 0x20 || n == 0x85 || n == 0xA0 || n == 0x1680 ||
    (0x2000 ≤ n && n ≤ 0x200A) || n == 0x2028 || n == 0x2029 || n == 0x202F || n == 0x205F ||
    n == 0x3000

/-- A text that holds nothing but blank characters; the empty text is one. -/
def isBlankText (s : String) : Bool :=
  s.toList.all isBlank

/-- A text without the blank characters at its end. -/
def trimEnd (cs : List Char) : List Char :=
  (cs.reverse.dropWhile isBlank).reverse

/-- What trimming removes is a blank end. -/
theorem exists_trimEnd_append (cs : List Char) :
    ∃ blanks : List Char, cs = trimEnd cs ++ blanks ∧ blanks.all isBlank = true := by
  refine ⟨(cs.reverse.takeWhile isBlank).reverse, ?_, ?_⟩
  · rw [trimEnd, ← List.reverse_append, List.takeWhile_append_dropWhile, List.reverse_reverse]
  · rw [List.all_reverse]
    exact List.all_takeWhile

/-- What trimming leaves does not end in a blank character. -/
theorem isBlank_getLast_trimEnd {cs : List Char} (h : trimEnd cs ≠ []) :
    isBlank ((trimEnd cs).getLast h) = false := by
  have hdrop : cs.reverse.dropWhile isBlank ≠ [] := fun he => h (by simp [trimEnd, he])
  simp only [trimEnd, List.getLast_reverse]
  exact List.head_dropWhile_not isBlank hdrop

/-- Trimming leaves nothing exactly of the blank texts. -/
theorem trimEnd_eq_nil_iff {cs : List Char} : trimEnd cs = [] ↔ cs.all isBlank = true := by
  rw [trimEnd, List.reverse_eq_nil_iff, ← List.all_reverse]
  induction cs.reverse with
  | nil => simp
  | cons c cs ih => by_cases h : isBlank c = true <;> simp [h, ← ih]

end Text

end DiagnosticReport
