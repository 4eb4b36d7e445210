import DiagnosticReport.Proofs.Markup.UniqueReading

/-!
# Comparing what is shown

Two functions that show values of a type, or leave them out, may look different and yet tell the
same: `SameView f g` says that they leave out the same values and tell the same values apart. Then
they also tell the same of optional values and of lists.

The children of a group that are optional can be told by their names; `Named` is what a list of
children may be called.
-/

namespace DiagnosticReport

open Markup

/-! ### Two views of the same parts -/

/-- Two views of the values of a type leave out the same values and tell the same values apart. -/
structure SameView {α β γ : Type} (f : α → Option β) (g : α → Option γ) : Prop where
  /-- They tell the same values apart. -/
  eq_iff : ∀ x y, f x = f y ↔ g x = g y
  /-- They leave out the same values. -/
  none_iff : ∀ x, f x = none ↔ g x = none

namespace SameView

variable {α β γ : Type} {f : α → Option β} {g : α → Option γ}

theorem bind_eq_iff (h : SameView f g) (o o' : Option α) :
    o.bind f = o'.bind f ↔ o.bind g = o'.bind g := by
  cases o with
  | none =>
    cases o' with
    | none => simp
    | some y => simpa [eq_comm] using h.none_iff y
  | some x =>
    cases o' with
    | none => simpa using h.none_iff x
    | some y => simpa using h.eq_iff x y

theorem filterMap_eq_nil_iff (h : SameView f g) (xs : List α) :
    xs.filterMap f = [] ↔ xs.filterMap g = [] := by
  simp [h.none_iff]

theorem filterMap_eq_iff (h : SameView f g) (xs ys : List α) :
    xs.filterMap f = ys.filterMap f ↔ xs.filterMap g = ys.filterMap g := by
  induction xs generalizing ys with
  | nil => simpa [eq_comm] using h.filterMap_eq_nil_iff ys
  | cons x xs ih =>
    cases hx : f x with
    | none =>
      have hgx : g x = none := (h.none_iff x).1 hx
      simpa [hx, hgx] using ih ys
    | some a =>
      obtain ⟨c, hgx⟩ : ∃ c, g x = some c :=
        Option.ne_none_iff_exists'.1 fun hgx => by simp [(h.none_iff x).2 hgx] at hx
      -- the first value of `ys` that is shown has to be compared with `x`
      induction ys with
      | nil => simp [hx, hgx]
      | cons y ys ihy =>
        cases hy : f y with
        | none =>
          have hgy : g y = none := (h.none_iff y).1 hy
          simpa [hy, hgy] using ihy
        | some b =>
          obtain ⟨d, hgy⟩ : ∃ d, g y = some d :=
            Option.ne_none_iff_exists'.1 fun hgy => by simp [(h.none_iff y).2 hgy] at hy
          have hxy := h.eq_iff x y
          rw [hx, hy, hgx, hgy, Option.some_inj, Option.some_inj] at hxy
          simp [hx, hy, hgx, hgy, hxy, ih ys]

theorem of_blank {p q : α → Prop} [DecidablePred p] [DecidablePred q] {F : α → β} {G : α → γ}
    (hblank : ∀ x, p x ↔ q x) (h : ∀ x y, ¬ p x → ¬ p y → (F x = F y ↔ G x = G y)) :
    SameView (fun x => if p x then none else some (F x))
      (fun x => if q x then none else some (G x)) := by
  constructor
  · intro x y
    by_cases hx : p x
    · by_cases hy : p y <;> simp [← hblank, hx, hy]
    · by_cases hy : p y
      · simp [← hblank, hx, hy]
      · simpa [← hblank, hx, hy] using h x y hx hy
  · intro x
    by_cases hx : p x <;> simp [← hblank, hx]

/-- A group that is left out if it has no children shows what its children show. -/
theorem group [DecidableEq γ] (tag : GroupTag) (attributes : List Attribute) (empty : α)
    {children : α → List Element} {normal : α → γ} {blank : γ}
    (hchildren : children empty = []) (hnormal : normal empty = blank)
    (h : ∀ x y, children x = children y ↔ normal x = normal y) :
    SameView
      (fun x => if (children x).isEmpty then none
        else some (Element.group tag attributes (children x)))
      (fun x => if normal x = blank then none else some (normal x)) := by
  refine .of_blank (fun x => ?_) fun x y _ _ => ?_
  · rw [List.isEmpty_iff, ← hchildren, ← hnormal, h]
  · rw [Element.group.injEq, h]
    simp

end SameView

/-! ### Children that can be told by their names -/

/-- All of these elements have one of these names. -/
def Named (names : List String) (es : List Element) : Prop :=
  ∀ e ∈ es, e.label ∈ names

theorem Named.append {names names' : List String} {es es' : List Element} (h : Named names es)
    (h' : Named names' es') : Named (names ++ names') (es ++ es') := by
  intro e he
  rcases List.mem_append.1 he with he | he
  · exact List.mem_append_left _ (h e he)
  · exact List.mem_append_right _ (h' e he)

theorem named_toList {names : List String} {o : Option Element}
    (h : ∀ e, o = some e → e.label ∈ names) : Named names o.toList :=
  fun e he => h e (Option.mem_toList.1 he)

theorem named_map {α : Type} {names : List String} {element : α → Element}
    (h : ∀ a, (element a).label ∈ names) (o : Option α) : Named names (o.map element).toList := by
  refine named_toList fun e he => ?_
  obtain ⟨a, -, rfl⟩ := Option.map_eq_some_iff.1 he
  exact h a

/-- An optional part that is left out in some cases. -/
theorem named_unless {α : Type} {names : List String} {p : α → Prop} [DecidablePred p]
    {element : α → Element} (h : ∀ a, (element a).label ∈ names) (o : Option α) :
    Named names (o.bind fun a => if p a then none else some (element a)).toList := by
  refine named_toList fun e he => ?_
  obtain ⟨a, -, ha⟩ := Option.bind_eq_some_iff.1 he
  rw [Option.ite_none_left_eq_some, Option.some_inj] at ha
  obtain ⟨-, rfl⟩ := ha
  exact h a

theorem toList_inj {α : Type} {o o' : Option α} : o.toList = o'.toList ↔ o = o' :=
  ⟨fun h => by simpa using congrArg List.head? h, fun h => h ▸ rfl⟩

theorem Named.toList_append_inj {names names' : List String} {o o' : Option Element}
    {es es' : List Element} (ho : Named names o.toList) (ho' : Named names o'.toList)
    (hes : Named names' es) (hes' : Named names' es') (hne : ∀ name ∈ names, name ∉ names') :
    o.toList ++ es = o'.toList ++ es' ↔ o = o' ∧ es = es' := by
  constructor
  · intro h
    cases o with
    | none =>
      cases o' with
      | none => exact ⟨rfl, h⟩
      | some e' =>
        have hmem : e' ∈ es := by rw [show es = e' :: es' from h]; exact List.mem_cons_self
        exact absurd (hes e' hmem) (hne _ (ho' e' List.mem_cons_self))
    | some e =>
      cases o' with
      | none =>
        have hmem : e ∈ es' := by rw [← show e :: es = es' from h]; exact List.mem_cons_self
        exact absurd (hes' e hmem) (hne _ (ho e List.mem_cons_self))
      | some e' =>
        obtain ⟨rfl, rfl⟩ := List.cons.inj h
        exact ⟨rfl, rfl⟩
  · rintro ⟨rfl, rfl⟩
    rfl

end DiagnosticReport
