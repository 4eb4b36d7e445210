import DiagnosticReport.Proofs.Json.UniqueReading
import DiagnosticReport.Proofs.Report.NormalForm
import Mathlib.Data.List.Basic

/-!
# What the JSON form of a report tells

The JSON form of a report leaves nothing out: two reports that are written alike are the same
(`Analysis.json_faithful`). A part that may be absent is null if it is, and no part that is present
is written as null, so a present part that carries nothing differs from an absent one; markup shows
neither. The objects that an issue, a failure and an info are written as share keys, but each has a
field `type` of its own, and no object of a report has two fields with the same key
(`Json.Distinct`).
-/

namespace DiagnosticReport

/-! ### Parts that may be absent -/

namespace Json

/-- Nothing that is written so is written alike. -/
def Faithful {α : Type} (toJson : α → Json) : Prop :=
  ∀ a b, (toJson a).compact = (toJson b).compact ↔ a = b

/-- No object of a value has two fields with the same key. -/
inductive Distinct : Json → Prop where
  | null : Distinct .null
  | number (n : Nat) : Distinct (.number n)
  | string (s : String) : Distinct (.string s)
  | array {items : List Json} (values : ∀ item ∈ items, Distinct item) : Distinct (.array items)
  | object {fields : List (String × Json)} (keys : (fields.map Prod.fst).Nodup)
      (values : ∀ field ∈ fields, Distinct field.2) : Distinct (.object fields)

variable {α : Type} {toJson : α → Json}

theorem faithful_iff_injective : Faithful toJson ↔ toJson.Injective := by
  unfold Faithful
  simp only [compact_inj]
  refine ⟨fun h a b => (h a b).1, fun h a b => h.eq_iff⟩

/-- An absent part and a present one are not written alike, if no present part is null. -/
theorem ofOption_injective (h : toJson.Injective) (hnull : ∀ a, toJson a ≠ .null) :
    (ofOption toJson).Injective := by
  intro x y hxy
  cases x with
  | none =>
    cases y with
    | none => rfl
    | some b => exact absurd hxy.symm (hnull b)
  | some a =>
    cases y with
    | none => exact absurd hxy (hnull a)
    | some b => rw [h hxy]

theorem distinct_ofOption (h : ∀ a, (toJson a).Distinct) (o : Option α) :
    (ofOption toJson o).Distinct := by
  cases o with
  | none => exact .null
  | some a => exact h a

theorem Distinct.of_fields {fields : List (String × Json)}
    (h : (fields.map Prod.fst).Nodup ∧ (fields.map Prod.snd).Forall Distinct) :
    (Json.object fields).Distinct := by
  refine .object h.1 ?_
  intro field hfield
  exact List.forall_iff_forall_mem.1 h.2 field.2 (List.mem_map_of_mem hfield)

theorem Distinct.of_map {items : List α} (h : ∀ a, (toJson a).Distinct) :
    (Json.array (items.map toJson)).Distinct := by
  refine .array ?_
  intro item hitem
  obtain ⟨a, -, rfl⟩ := List.mem_map.1 hitem
  exact h a

end Json

open Json

/-! ### Locations and traces -/

theorem Point.toJson_injective : Point.toJson.Injective := by
  rintro ⟨column, line⟩ ⟨column', line'⟩ h
  simpa [Point.toJson] using h

theorem Range.toJson_injective : Range.toJson.Injective := by
  rintro ⟨start, stop⟩ ⟨start', stop'⟩ h
  simpa [Range.toJson, Point.toJson_injective.eq_iff] using h

theorem Anchor.toJson_injective : Anchor.toJson.Injective := by
  intro a b h
  cases a with
  | range r =>
    cases b with
    | range r' => simpa [Anchor.toJson, Range.toJson_injective.eq_iff] using h
    | point p' => simp [Anchor.toJson] at h
  | point p =>
    cases b with
    | range r' => simp [Anchor.toJson] at h
    | point p' => simpa [Anchor.toJson, Point.toJson_injective.eq_iff] using h

theorem SourceFile.toJson_injective : SourceFile.toJson.Injective := by
  rintro ⟨path⟩ ⟨path'⟩ h
  simpa [SourceFile.toJson] using h

theorem Function.toJson_injective : Function.toJson.Injective := by
  rintro ⟨name⟩ ⟨name'⟩ h
  simpa [Function.toJson] using h

theorem SourceFile.ofOption_toJson_injective : (ofOption SourceFile.toJson).Injective :=
  ofOption_injective SourceFile.toJson_injective (by simp [SourceFile.toJson])

theorem Function.ofOption_toJson_injective : (ofOption Function.toJson).Injective :=
  ofOption_injective Function.toJson_injective (by simp [Function.toJson])

theorem Anchor.ofOption_toJson_injective : (ofOption Anchor.toJson).Injective := by
  refine ofOption_injective Anchor.toJson_injective ?_
  intro a
  cases a <;> simp [Anchor.toJson]

theorem Location.toJson_injective : Location.toJson.Injective := by
  rintro ⟨file, function, anchor⟩ ⟨file', function', anchor'⟩ h
  simpa [Location.toJson, SourceFile.ofOption_toJson_injective.eq_iff,
    Function.ofOption_toJson_injective.eq_iff, Anchor.ofOption_toJson_injective.eq_iff] using h

theorem Location.ofOption_toJson_injective : (ofOption Location.toJson).Injective :=
  ofOption_injective Location.toJson_injective (by simp [Location.toJson])

theorem ofOption_string_injective : (ofOption Json.string).Injective :=
  ofOption_injective (fun _ _ => Json.string.inj) (by simp)

theorem TraceStep.toJson_injective : TraceStep.toJson.Injective := by
  rintro ⟨location, notes⟩ ⟨location', notes'⟩ h
  simpa [TraceStep.toJson, Location.toJson_injective.eq_iff,
    ofOption_string_injective.eq_iff] using h

theorem Trace.toJson_injective : Trace.toJson.Injective := by
  rintro ⟨steps⟩ ⟨steps'⟩ h
  simpa [Trace.toJson, TraceStep.toJson_injective.list_map.eq_iff] using h

theorem Trace.ofOption_toJson_injective : (ofOption Trace.toJson).Injective :=
  ofOption_injective Trace.toJson_injective (by simp [Trace.toJson])

/-! ### Entries and reports -/

theorem Issue.toJson_injective : Issue.toJson.Injective := by
  rintro ⟨message, location, trace⟩ ⟨message', location', trace'⟩ h
  simpa [Issue.toJson, Location.toJson_injective.eq_iff,
    Trace.ofOption_toJson_injective.eq_iff] using h

theorem Failure.toJson_injective : Failure.toJson.Injective := by
  rintro ⟨kind, message, location⟩ ⟨kind', message', location'⟩ h
  simpa [Failure.toJson, FailureKind.identifier_inj,
    Location.ofOption_toJson_injective.eq_iff] using h

theorem Info.toJson_injective : Info.toJson.Injective := by
  rintro ⟨category, message⟩ ⟨category', message'⟩ h
  simpa [Info.toJson, Category.identifier_inj] using h

/-- **The fields of an entry.** The field `type` says which kind of entry it is, and the field `id`
is the identifier, where there is one. -/
theorem Entry.exists_fields (e : Entry) : ∃ fields, e.toJson = .object fields ∧
    fields.lookup "type" = some (.string e.elementName) ∧
    fields.lookup "id" = e.identifier?.map Json.string := by
  cases e with
  | issue i => exact ⟨_, rfl, rfl, rfl⟩
  | failure f => exact ⟨_, rfl, rfl, rfl⟩
  | info i => exact ⟨_, rfl, rfl, rfl⟩

theorem Entry.elementName_eq_of_toJson_eq {x y : Entry} (h : x.toJson = y.toJson) :
    x.elementName = y.elementName := by
  obtain ⟨fields, hx, htype, -⟩ := x.exists_fields
  obtain ⟨fields', hy, htype', -⟩ := y.exists_fields
  rw [hx, hy, Json.object.injEq] at h
  rw [← h, htype] at htype'
  exact Json.string.inj (Option.some.inj htype')

theorem Entry.toJson_injective : Entry.toJson.Injective := by
  intro x y h
  have hname := Entry.elementName_eq_of_toJson_eq h
  cases x with
  | issue i =>
    cases y with
    | issue j => exact congrArg Entry.issue (Issue.toJson_injective h)
    | failure g => simp [elementName] at hname
    | info j => simp [elementName] at hname
  | failure f =>
    cases y with
    | issue j => simp [elementName] at hname
    | failure g => exact congrArg Entry.failure (Failure.toJson_injective h)
    | info j => simp [elementName] at hname
  | info i =>
    cases y with
    | issue j => simp [elementName] at hname
    | failure g => simp [elementName] at hname
    | info j => exact congrArg Entry.info (Info.toJson_injective h)

theorem Generator.toJson_injective : Generator.toJson.Injective := by
  rintro ⟨name, version⟩ ⟨name', version'⟩ h
  simpa [Generator.toJson] using h

theorem Metadata.toJson_injective : Metadata.toJson.Injective := by
  rintro ⟨generator⟩ ⟨generator'⟩ h
  simpa [Metadata.toJson, Generator.toJson_injective.eq_iff] using h

theorem Analysis.toJson_injective : Analysis.toJson.Injective := by
  rintro ⟨metadata, results⟩ ⟨metadata', results'⟩ h
  simpa [Analysis.toJson, Results.toJson, Metadata.toJson_injective.eq_iff,
    Entry.toJson_injective.list_map.eq_iff] using h

/-! ### Keys -/

theorem Point.distinct_toJson (p : Point) : p.toJson.Distinct :=
  .of_fields ⟨by simp, .number _, .number _⟩

theorem Range.distinct_toJson (r : Range) : r.toJson.Distinct :=
  .of_fields ⟨by simp, r.start.distinct_toJson, r.stop.distinct_toJson⟩

theorem Anchor.distinct_toJson (a : Anchor) : a.toJson.Distinct := by
  cases a with
  | range r => exact .of_fields ⟨by simp, r.distinct_toJson⟩
  | point p => exact .of_fields ⟨by simp, p.distinct_toJson⟩

theorem SourceFile.distinct_toJson (f : SourceFile) : f.toJson.Distinct :=
  .of_fields ⟨by simp, .string _⟩

theorem Function.distinct_toJson (f : Function) : f.toJson.Distinct :=
  .of_fields ⟨by simp, .string _⟩

theorem Location.distinct_toJson (l : Location) : l.toJson.Distinct :=
  .of_fields ⟨by simp, distinct_ofOption SourceFile.distinct_toJson _,
    distinct_ofOption Function.distinct_toJson _, distinct_ofOption Anchor.distinct_toJson _⟩

theorem TraceStep.distinct_toJson (s : TraceStep) : s.toJson.Distinct :=
  .of_fields ⟨by simp, s.location.distinct_toJson, distinct_ofOption .string _⟩

theorem Trace.distinct_toJson (t : Trace) : t.toJson.Distinct :=
  .of_fields ⟨by simp, .of_map TraceStep.distinct_toJson⟩

theorem Entry.distinct_toJson (e : Entry) : e.toJson.Distinct := by
  cases e with
  | issue i =>
    exact .of_fields ⟨by simp, .string _, .string _, i.location.distinct_toJson,
      distinct_ofOption Trace.distinct_toJson _⟩
  | failure f =>
    exact .of_fields ⟨by simp, .string _, .string _, .string _,
      distinct_ofOption Location.distinct_toJson _⟩
  | info i => exact .of_fields ⟨by simp, .string _, .string _, .string _⟩

theorem Analysis.distinct_toJson (a : Analysis) : a.toJson.Distinct := by
  have hgenerator : a.metadata.generator.toJson.Distinct :=
    .of_fields ⟨by simp, .string _, .string _⟩
  have hmetadata : a.metadata.toJson.Distinct := .of_fields ⟨by simp, hgenerator⟩
  exact .of_fields ⟨by simp, hmetadata, .of_map Entry.distinct_toJson⟩

/-- **The JSON form of a report is faithful.**

* Two reports that are written alike are the same; so they have the same markup.
* A part that may be absent is written so that absent and present parts, and different present
  parts, are told apart: files, functions, anchors, locations, traces and notes.
* No object of a report has two fields with the same key. What an entry is written as says by its
  type which kind of entry it is, and by its identifier, where it has one, which one. -/
theorem Analysis.json_faithful :
    (∀ a b : Analysis, (a.toJson.compact = b.toJson.compact ↔ a = b) ∧
      (a.toJson.compact = b.toJson.compact → a.markup = b.markup)) ∧
    (Faithful (ofOption SourceFile.toJson) ∧ Faithful (ofOption Function.toJson) ∧
      Faithful (ofOption Anchor.toJson) ∧ Faithful (ofOption Location.toJson) ∧
      Faithful (ofOption Trace.toJson) ∧ Faithful (ofOption Json.string)) ∧
    (∀ a : Analysis, a.toJson.Distinct) ∧
    ∀ e : Entry, ∃ fields, e.toJson = .object fields ∧
      fields.lookup "type" = some (.string e.elementName) ∧
      fields.lookup "id" = e.identifier?.map Json.string := by
  have hreport := faithful_iff_injective.2 Analysis.toJson_injective
  refine ⟨fun a b => ⟨hreport a b, fun h => ?_⟩, ⟨?_, ?_, ?_, ?_, ?_, ?_⟩,
    Analysis.distinct_toJson, Entry.exists_fields⟩
  · rw [(hreport a b).1 h]
  · exact faithful_iff_injective.2 SourceFile.ofOption_toJson_injective
  · exact faithful_iff_injective.2 Function.ofOption_toJson_injective
  · exact faithful_iff_injective.2 Anchor.ofOption_toJson_injective
  · exact faithful_iff_injective.2 Location.ofOption_toJson_injective
  · exact faithful_iff_injective.2 Trace.ofOption_toJson_injective
  · exact faithful_iff_injective.2 ofOption_string_injective

end DiagnosticReport
