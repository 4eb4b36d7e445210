import DiagnosticReport.Proofs.Report.Views
import DiagnosticReport.Report.Analysis
import Std.Data.String.ToNat

/-!
# What the markup of a report tells

Markup leaves out the parts of a report that carry nothing. The normal form of a part is what is
left of it then: a file without path, a function without name and empty notes are absent, and so
is a location, a step or an entry of which no part is left. A trace that is present stays present
even if none of its steps is left. The message of an issue and its location are never absent as
such; the empty message and the location without parts stand for it.

Nothing else is left out: `Analysis.markup_eq_markup_iff` says that two reports have the same
markup exactly if they have the same normal form. Since elements can be read in one way only
(`Markup.Element.render_inj`), it is left to compare the elements of two parts with their normal
forms, from the leaves up. `SameView` is what is shown at each stage.
-/

namespace DiagnosticReport

open Markup

/-! ### Normal forms -/

/-- A file, unless it has no path. -/
def SourceFile.normal? (f : SourceFile) : Option SourceFile :=
  if f.givenPath = "" then none else some f

/-- A function, unless it has no name. -/
def Function.normal? (f : Function) : Option Function :=
  if f.name = "" then none else some f

/-- A text, unless it is empty. -/
def textNormal? (s : String) : Option String :=
  if s = "" then none else some s

namespace Location

/-- A location without a file or function that carries nothing. -/
def normal (l : Location) : Location where
  file := l.file.bind SourceFile.normal?
  function := l.function.bind Function.normal?
  anchor := l.anchor

/-- A location, unless nothing of it is left. -/
def normal? (l : Location) : Option Location :=
  if l.normal = {} then none else some l.normal

end Location

namespace TraceStep

/-- A step without the parts of it that carry nothing. -/
def normal (s : TraceStep) : TraceStep where
  location := s.location.normal
  notes := s.notes.bind textNormal?

/-- A step, unless nothing of it is left. -/
def normal? (s : TraceStep) : Option TraceStep :=
  if s.normal = { location := {} } then none else some s.normal

end TraceStep

/-- A trace without the steps that carry nothing. -/
def Trace.normal (t : Trace) : Trace where
  steps := t.steps.filterMap TraceStep.normal?

namespace Issue

/-- An issue without the parts of it that carry nothing. -/
def normal (i : Issue) : Issue where
  message := i.message
  location := i.location.normal
  trace := i.trace.map Trace.normal

/-- An issue, unless nothing of it is left. -/
def normal? (i : Issue) : Option Issue :=
  if i.normal = { message := "", location := {} } then none else some i.normal

end Issue

namespace Failure

/-- A failure without a location that carries nothing. -/
def normal (f : Failure) : Failure where
  kind := f.kind
  message := f.message
  location := f.location.bind Location.normal?

/-- A failure, unless nothing but its kind is left. -/
def normal? (f : Failure) : Option Failure :=
  if f.message = "" ∧ f.normal.location = none then none else some f.normal

end Failure

/-- An info, unless it has no message. -/
def Info.normal? (i : Info) : Option Info :=
  if i.message = "" then none else some i

/-- An entry, unless nothing of it is left. -/
def Entry.normal? : Entry → Option Entry
  | .issue i => i.normal?.map .issue
  | .failure f => f.normal?.map .failure
  | .info i => i.normal?.map .info

/-- The metadata, unless the generator has neither name nor version. -/
def Metadata.normal? (m : Metadata) : Option Metadata :=
  if m.generator.name = "" ∧ m.generator.version = "" then none else some m

/-- What is left of a report without the parts that carry nothing. -/
structure NormalForm where
  /-- The metadata, if it carries anything. -/
  metadata : Option Metadata
  /-- The entries that carry anything, without their parts that carry nothing. -/
  results : Results
  deriving DecidableEq

/-- The normal form of a report. -/
def Analysis.normalForm (a : Analysis) : NormalForm where
  metadata := a.metadata.normal?
  results := a.results.filterMap Entry.normal?

/-! ### The parts of a report, from the leaves up -/

theorem Point.element_inj {p q : Point} : p.element = q.element ↔ p = q := by
  cases p
  cases q
  simp [Point.element, Nat.repr_inj]

theorem Range.element_inj {r s : Range} : r.element = s.element ↔ r = s := by
  cases r
  cases s
  simp [Range.element, Point.element_inj]

theorem Anchor.element_inj {a b : Anchor} : a.element = b.element ↔ a = b := by
  cases a with
  | range r =>
    cases b with
    | range s => simp [Anchor.element, Range.element_inj]
    | point q => simp [Anchor.element, Range.element, Point.element]
  | point p =>
    cases b with
    | range s => simp [Anchor.element, Range.element, Point.element]
    | point q => simp [Anchor.element, Point.element_inj]

theorem SourceFile.sameView : SameView SourceFile.element? SourceFile.normal? :=
  .of_blank (fun _ => Iff.rfl) fun f g _ _ => by
    cases f
    cases g
    simp

theorem Function.sameView : SameView Function.element? Function.normal? :=
  .of_blank (fun _ => Iff.rfl) fun f g _ _ => by
    cases f
    cases g
    simp

theorem textSameView (tag : TextTag) : SameView (Element.text? tag) textNormal? :=
  .of_blank (fun _ => Iff.rfl) fun s t _ _ => by simp

theorem text?_eq_iff {tag : TextTag} {s t : String} :
    Element.text? tag s = Element.text? tag t ↔ s = t := by
  rw [(textSameView tag).eq_iff, textNormal?, textNormal?]
  by_cases hs : s = ""
  · by_cases ht : t = ""
    · simp [hs, ht]
    · simp [hs, ht, Ne.symm ht]
  · by_cases ht : t = "" <;> simp [hs, ht]

theorem Metadata.sameView : SameView Metadata.element? Metadata.normal? := by
  have helement : Metadata.element? = fun m =>
      if m.generator.name = "" ∧ m.generator.version = "" then none
      else some (.group .metadata []
        [.leaf .generator [⟨.name, m.generator.name⟩, ⟨.version, m.generator.version⟩]]) := by
    funext m
    rw [Metadata.element?, Generator.element?]
    split <;> rfl
  rw [helement]
  refine .of_blank (fun _ => Iff.rfl) fun m m' _ _ => ?_
  obtain ⟨⟨name, version⟩⟩ := m
  obtain ⟨⟨name', version'⟩⟩ := m'
  simp

/-! ### Locations, steps and traces -/

theorem SourceFile.named (o : Option SourceFile) :
    Named ["file"] (o.bind SourceFile.element?).toList := by
  refine named_unless (fun _ => ?_) o
  exact List.mem_singleton.2 rfl

theorem Function.named (o : Option Function) :
    Named ["function"] (o.bind Function.element?).toList := by
  refine named_unless (fun _ => ?_) o
  exact List.mem_singleton.2 rfl

theorem Anchor.named (o : Option Anchor) :
    Named ["range", "point"] (o.map Anchor.element).toList := by
  refine named_map (fun a => ?_) o
  cases a with
  | range r => exact List.mem_cons_self
  | point p => exact List.mem_cons_of_mem _ List.mem_cons_self

theorem textNamed (tag : TextTag) (o : Option String) :
    Named [tag.label] (o.bind (Element.text? tag)).toList := by
  refine named_unless (fun _ => ?_) o
  exact List.mem_singleton.2 rfl

namespace Location

theorem parts_eq_iff (l m : Location) : l.parts = m.parts ↔ l.normal = m.normal := by
  have hanchor : Function.Injective (Option.map Anchor.element) :=
    Option.map_injective fun a b h => Anchor.element_inj.1 h
  rw [parts, parts, List.append_assoc, List.append_assoc,
    (SourceFile.named _).toList_append_inj (SourceFile.named _)
      ((Function.named _).append (Anchor.named _)) ((Function.named _).append (Anchor.named _))
      (by decide),
    (Function.named _).toList_append_inj (Function.named _) (Anchor.named _) (Anchor.named _)
      (by decide),
    toList_inj, hanchor.eq_iff, SourceFile.sameView.bind_eq_iff, Function.sameView.bind_eq_iff,
    normal, normal, Location.mk.injEq]

theorem sameView : SameView Location.element? Location.normal? :=
  .group .location [] {} rfl rfl parts_eq_iff

theorem named (o : Option Location) : Named ["location"] (o.bind Location.element?).toList := by
  refine named_unless (fun _ => ?_) o
  exact List.mem_singleton.2 rfl

theorem element?_eq_iff (l m : Location) : l.element? = m.element? ↔ l.normal = m.normal := by
  rw [sameView.eq_iff, normal?, normal?]
  by_cases hl : l.normal = {}
  · by_cases hm : m.normal = {}
    · simp [hl, hm]
    · simp [hl, hm, Ne.symm hm]
  · by_cases hm : m.normal = {} <;> simp [hl, hm]

end Location

namespace TraceStep

theorem parts_eq_iff (s t : TraceStep) : s.parts = t.parts ↔ s.normal = t.normal := by
  have hlocation : ∀ l : Location, Named ["location"] l.element?.toList :=
    fun l => Location.named (some l)
  rw [parts, parts,
    (hlocation _).toList_append_inj (hlocation _) (textNamed _ _) (textNamed _ _) (by decide),
    toList_inj, Location.element?_eq_iff, (textSameView .notes).bind_eq_iff, normal, normal,
    TraceStep.mk.injEq]

theorem sameView : SameView TraceStep.element? TraceStep.normal? :=
  .group .state [] { location := {} } rfl rfl parts_eq_iff

end TraceStep

theorem Trace.element_eq_iff (t u : Trace) : t.element = u.element ↔ t.normal = u.normal := by
  simp [Trace.element, Trace.normal, TraceStep.sameView.filterMap_eq_iff]

/-! ### Entries and reports -/

theorem Trace.named (o : Option Trace) : Named ["trace"] (o.map Trace.element).toList := by
  refine named_map (fun _ => ?_) o
  exact List.mem_singleton.2 rfl

namespace Issue

theorem parts_eq_iff (i j : Issue) : i.parts = j.parts ↔ i.normal = j.normal := by
  have hmessage : ∀ s : String, Named ["message"] (Element.text? .message s).toList :=
    fun s => textNamed .message (some s)
  have hlocation : ∀ l : Location, Named ["location"] l.element?.toList :=
    fun l => Location.named (some l)
  have htrace : ∀ o o' : Option Trace,
      o.map Trace.element = o'.map Trace.element ↔ o.map Trace.normal = o'.map Trace.normal := by
    intro o o'
    cases o <;> cases o' <;> simp [Trace.element_eq_iff]
  rw [parts, parts, List.append_assoc, List.append_assoc,
    (hmessage _).toList_append_inj (hmessage _)
      ((hlocation _).append (Trace.named _)) ((hlocation _).append (Trace.named _)) (by decide),
    (hlocation _).toList_append_inj (hlocation _) (Trace.named _) (Trace.named _) (by decide),
    toList_inj, text?_eq_iff, Location.element?_eq_iff, htrace, normal, normal, Issue.mk.injEq]

theorem sameView : SameView Issue.element? Issue.normal? :=
  .group .issue [] { message := "", location := {} } rfl rfl parts_eq_iff

end Issue

theorem FailureKind.identifier_inj {k k' : FailureKind} :
    k.identifier = k'.identifier ↔ k = k' := by
  cases k <;> cases k' <;> decide

namespace Failure

theorem parts_eq_iff (f g : Failure) :
    f.parts = g.parts ↔ f.normal.location = g.normal.location ∧ f.message = g.message := by
  have hmessage : ∀ s : String, Named ["message"] (Element.text? .message s).toList :=
    fun s => textNamed .message (some s)
  rw [parts, parts,
    (Location.named _).toList_append_inj (Location.named _) (hmessage _) (hmessage _) (by decide),
    toList_inj, text?_eq_iff, Location.sameView.bind_eq_iff, normal, normal]

theorem parts_eq_nil_iff (f : Failure) :
    f.parts = [] ↔ f.message = "" ∧ f.normal.location = none := by
  rw [and_comm]
  exact f.parts_eq_iff { kind := f.kind, message := "" }

theorem sameView : SameView Failure.element? Failure.normal? := by
  refine .of_blank (fun f => ?_) fun f g _ _ => ?_
  · rw [List.isEmpty_iff, parts_eq_nil_iff]
  · simp only [Element.group.injEq, List.cons.injEq, Attribute.mk.injEq,
      FailureKind.identifier_inj, true_and, and_true, parts_eq_iff, normal, Failure.mk.injEq]
    exact and_congr_right fun _ => and_comm

end Failure

theorem Category.ofIdentifier?_identifier (c : Category) :
    ofIdentifier? c.identifier = some c := by
  cases c <;> decide

theorem Category.identifier_inj {c d : Category} : c.identifier = d.identifier ↔ c = d := by
  refine ⟨fun h => ?_, fun h => h ▸ rfl⟩
  have hread := congrArg ofIdentifier? h
  rwa [ofIdentifier?_identifier, ofIdentifier?_identifier, Option.some_inj] at hread

theorem Info.sameView : SameView Info.element? Info.normal? := by
  have helement : Info.element? = fun i => if i.message = "" then none
      else some (.group .info [⟨.infoId, i.category.identifier⟩] [.text .message i.message]) := by
    funext i
    rw [Info.element?, Element.text?]
    split <;> rfl
  rw [helement]
  refine .of_blank (fun _ => Iff.rfl) fun i j _ _ => ?_
  obtain ⟨category, message⟩ := i
  obtain ⟨category', message'⟩ := j
  simp [Category.identifier_inj]

namespace Entry

/-- The name of the elements that show entries of this kind. -/
def elementName : Entry → String
  | .issue _ => "issue"
  | .failure _ => "failure"
  | .info _ => "info"

theorem label_element? (x : Entry) : ∀ e, x.element? = some e → e.label = x.elementName := by
  intro e he
  cases x with
  | issue i =>
    rw [element?, Issue.element?, Option.ite_none_left_eq_some] at he
    obtain rfl := Option.some.inj he.2
    rfl
  | failure f =>
    rw [element?, Failure.element?, Option.ite_none_left_eq_some] at he
    obtain rfl := Option.some.inj he.2
    rfl
  | info i =>
    obtain ⟨m, -, rfl⟩ := Option.map_eq_some_iff.1 he
    rfl

theorem elementName_normal? (x : Entry) :
    ∀ y, x.normal? = some y → y.elementName = x.elementName := by
  intro y hy
  cases x with
  | issue i =>
    obtain ⟨j, -, rfl⟩ := Option.map_eq_some_iff.1 hy
    rfl
  | failure f =>
    obtain ⟨g, -, rfl⟩ := Option.map_eq_some_iff.1 hy
    rfl
  | info i =>
    obtain ⟨j, -, rfl⟩ := Option.map_eq_some_iff.1 hy
    rfl

/-- What has different names is the same only if there is nothing. -/
theorem eq_iff_of_name_ne {α : Type} {o o' : Option α} {name : α → String} {n n' : String}
    (ho : ∀ a, o = some a → name a = n) (ho' : ∀ a, o' = some a → name a = n') (h : n ≠ n') :
    o = o' ↔ o = none ∧ o' = none := by
  constructor
  · rintro rfl
    cases o with
    | none => exact ⟨rfl, rfl⟩
    | some a => exact absurd ((ho a rfl).symm.trans (ho' a rfl)) h
  · rintro ⟨rfl, rfl⟩
    rfl

theorem element?_eq_none_iff (x : Entry) : x.element? = none ↔ x.normal? = none := by
  cases x with
  | issue i => simp [element?, normal?, Issue.sameView.none_iff]
  | failure f => simp [element?, normal?, Failure.sameView.none_iff]
  | info i => simp [element?, normal?, Info.sameView.none_iff]

theorem sameView : SameView Entry.element? Entry.normal? := by
  refine ⟨fun x y => ?_, element?_eq_none_iff⟩
  by_cases hname : x.elementName = y.elementName
  · cases x with
    | issue i =>
      cases y with
      | issue j =>
        have hinj := Option.map_injective fun a b : Issue => Entry.issue.inj
        simp only [element?, normal?, Issue.sameView.eq_iff, hinj.eq_iff]
      | failure g => simp [elementName] at hname
      | info j => simp [elementName] at hname
    | failure f =>
      cases y with
      | issue j => simp [elementName] at hname
      | failure g =>
        have hinj := Option.map_injective fun a b : Failure => Entry.failure.inj
        simp only [element?, normal?, Failure.sameView.eq_iff, hinj.eq_iff]
      | info j => simp [elementName] at hname
    | info i =>
      cases y with
      | issue j => simp [elementName] at hname
      | failure g => simp [elementName] at hname
      | info j =>
        have hinj := Option.map_injective fun a b : Info => Entry.info.inj
        simp only [element?, normal?, Info.sameView.eq_iff, hinj.eq_iff]
  · rw [eq_iff_of_name_ne x.label_element? y.label_element? hname,
      eq_iff_of_name_ne x.elementName_normal? y.elementName_normal? hname,
      element?_eq_none_iff, element?_eq_none_iff]

end Entry

theorem Metadata.named (m : Metadata) : Named ["metadata"] m.element?.toList := by
  refine named_map (fun _ => ?_) m.generator.element?
  exact List.mem_singleton.2 rfl

/-- **Markup loses nothing but what carries nothing.** Two reports are written alike exactly if
they have the same normal form. -/
theorem Analysis.markup_eq_markup_iff (a b : Analysis) :
    a.markup = b.markup ↔ a.normalForm = b.normalForm := by
  have hresults : ∀ r : Results, Named ["results"] [r.element] := fun r e he => by
    obtain rfl := List.mem_singleton.1 he
    exact List.mem_singleton.2 rfl
  calc a.markup = b.markup
      ↔ a.element = b.element := Element.render_inj
    _ ↔ a.metadata.element?.toList ++ [a.results.element] =
          b.metadata.element?.toList ++ [b.results.element] := by
        simp [Analysis.element]
    _ ↔ a.metadata.element? = b.metadata.element? ∧ [a.results.element] = [b.results.element] :=
        (Metadata.named _).toList_append_inj (Metadata.named _) (hresults _) (hresults _)
          (by decide)
    _ ↔ a.metadata.normal? = b.metadata.normal? ∧
          a.results.filterMap Entry.normal? = b.results.filterMap Entry.normal? := by
        simp [Results.element, Metadata.sameView.eq_iff, Entry.sameView.filterMap_eq_iff]
    _ ↔ a.normalForm = b.normalForm := by
        simp [Analysis.normalForm]

end DiagnosticReport
