import DiagnosticReport.Diagnostic.Event

/-!
# Warnings that are reported once

Which of the warnings that are to be reported once have been reported. Warnings are told apart by
origin and subject. The subject of a warning is its text, save that warnings about calls of
external functions, which quote the arguments of the call, share one subject.

The record only grows: a warning is in it exactly if it was in it before or is the one put in
(`mem_keys_insert`), and the size counts the warnings that were new (`size_insert`).
-/

namespace DiagnosticReport

/-- How a warning about the call of an external function starts. -/
def externalCallOpening : String := "calling external"

/-- What a warning is about. -/
def warningSubject (text : String) : String :=
  if externalCallOpening.toList.isPrefixOf text.toList then externalCallOpening else text

/-- What makes two warnings the same: where they come from and what they are about. -/
structure WarningKey where
  /-- Where the warning comes from. -/
  origin : Origin
  /-- What it is about. -/
  subject : String
  deriving DecidableEq

/-- The key of a warning. -/
def WarningKey.of (origin : Origin) (text : String) : WarningKey :=
  ⟨origin, warningSubject text⟩

/-- The warnings that have been reported, the latest first and each once. -/
structure ReportedWarnings where
  /-- The keys of the warnings. -/
  keys : List WarningKey := []

namespace ReportedWarnings

/-- No warning has been reported. -/
def empty : ReportedWarnings := {}

/-- How many different warnings have been reported. -/
def size (w : ReportedWarnings) : Nat :=
  w.keys.length

/-- Whether a warning has been reported. -/
def contains (w : ReportedWarnings) (origin : Origin) (text : String) : Bool :=
  w.keys.contains (.of origin text)

/-- Counts a warning as reported. -/
def insert (w : ReportedWarnings) (origin : Origin) (text : String) : ReportedWarnings :=
  ⟨w.keys.insert (.of origin text)⟩

/-- Counts a warning as reported: whether it is new, and the record afterwards. -/
def enter (w : ReportedWarnings) (origin : Origin) (text : String) : Bool × ReportedWarnings :=
  (!w.contains origin text, w.insert origin text)

theorem contains_iff {w : ReportedWarnings} {origin : Origin} {text : String} :
    w.contains origin text = true ↔ WarningKey.of origin text ∈ w.keys := by
  simp [contains]

theorem mem_keys_insert {w : ReportedWarnings} {origin : Origin} {text : String}
    {k : WarningKey} : k ∈ (w.insert origin text).keys ↔ k = .of origin text ∨ k ∈ w.keys := by
  simp [insert]

/-- The size grows exactly with new warnings. -/
theorem size_insert (w : ReportedWarnings) (origin : Origin) (text : String) :
    (w.insert origin text).size = w.size + if w.contains origin text then 0 else 1 := by
  by_cases h : WarningKey.of origin text ∈ w.keys <;> simp [insert, size, contains, h]

end ReportedWarnings

end DiagnosticReport
