import DiagnosticReport.Json.Printer
import DiagnosticReport.Proofs.Markup.UniqueReading
import Std.Data.String.ToNat

/-!
# Compact JSON can be read in one way only

No two values have the same compact spelling (`Json.compact_inj`), and wherever a value is followed
by something that is no digit, what stands there says which value it is and where it ends
(`Json.compact_append_inj`).

The first character tells the kind of a value (`Json.opens`). A string ends at the first quote that
is not escaped; that is seen by reading it character by character (`Json.readChar?`). A number ends
at the first character that is no digit. An array and an object go on with a comma or end with a
bracket, and no item starts with the bracket (`Json.listed_append_inj`).
-/

namespace DiagnosticReport

open Markup (append_cons_inj)

namespace Json

/-- **Induction over JSON values.** -/
@[elab_as_elim, induction_eliminator]
theorem induction {motive : Json → Prop} (null : motive .null)
    (number : ∀ n, motive (.number n)) (string : ∀ s, motive (.string s))
    (array : ∀ items, (∀ item ∈ items, motive item) → motive (.array items))
    (object : ∀ fields, (∀ field ∈ fields, motive field.2) → motive (.object fields)) :
    ∀ value, motive value
  | .null => null
  | .number n => number n
  | .string s => string s
  | .array items => array items fun item _ => induction null number string array object item
  | .object fields =>
    object fields fun (_, value) _ => induction null number string array object value
decreasing_by
  · decreasing_tactic
  · have hsize := List.sizeOf_lt_of_mem ‹(_, value) ∈ fields›
    simp only [Prod.mk.sizeOf_spec, Json.object.sizeOf_spec] at hsize ⊢
    omega

/-! ### Strings -/

/-- The number that a lower-case hexadecimal digit stands for. -/
def hexValue (c : Char) : Nat :=
  if c.isDigit then c.toNat - 0x30 else c.toNat - 0x57

theorem hexValue_hexDigit {n : Nat} (h : n < 16) : hexValue (hexDigit n) = n := by
  have hall : ∀ m < 16, hexValue (hexDigit m) = m := by decide
  exact hall n h

/-- The character that a backslash and this character stand for. -/
def escaped (c : Char) : Char :=
  if c = 'b' then '\x08'
  else if c = 'f' then '\x0c'
  else if c = 'n' then '\n'
  else if c = 'r' then '\x0d'
  else if c = 't' then '\t'
  else c

/-- The first character of a string and what is left to read, unless the string ends here. -/
def readChar? : List Char → Option (Char × List Char)
  | '\\' :: 'u' :: '0' :: '0' :: high :: low :: rest =>
    some (Char.ofNat (16 * hexValue high + hexValue low), rest)
  | '\\' :: c :: rest => some (escaped c, rest)
  | '"' :: _ => none
  | c :: rest => some (c, rest)
  | [] => none

theorem readChar?_cons {c : Char} (hquote : c ≠ '"') (hbackslash : c ≠ '\\') (rest : List Char) :
    readChar? (c :: rest) = some (c, rest) := by
  rw [readChar?.eq_def]
  split <;> simp_all

theorem readChar?_quoteChar_append (c : Char) (rest : List Char) :
    readChar? (quoteChar c ++ rest) = some (c, rest) := by
  unfold quoteChar
  split_ifs with hquote hbackslash hb hf hn hr ht hcontrol
  · rw [hquote]; rfl
  · rw [hbackslash]; rfl
  · rw [hb]; rfl
  · rw [hf]; rfl
  · rw [hn]; rfl
  · rw [hr]; rfl
  · rw [ht]; rfl
  · have hhigh : hexValue (hexDigit (c.toNat / 16)) = c.toNat / 16 := hexValue_hexDigit (by omega)
    have hlow : hexValue (hexDigit (c.toNat % 16)) = c.toNat % 16 := hexValue_hexDigit (by omega)
    have hcode : 16 * (c.toNat / 16) + c.toNat % 16 = c.toNat := Nat.div_add_mod _ _
    show some (Char.ofNat (16 * hexValue (hexDigit (c.toNat / 16)) +
      hexValue (hexDigit (c.toNat % 16))), rest) = some (c, rest)
    rw [hhigh, hlow, hcode, Char.ofNat_toNat]
  · exact readChar?_cons hquote hbackslash rest

theorem flatMap_quoteChar_append_inj {cs ds r s : List Char}
    (h : cs.flatMap quoteChar ++ '"' :: r = ds.flatMap quoteChar ++ '"' :: s) :
    cs = ds ∧ r = s := by
  -- what the two sides begin with is read alike
  induction cs generalizing ds with
  | nil =>
    cases ds with
    | nil => exact ⟨rfl, (List.cons.inj h).2⟩
    | cons d ds =>
      have hread := congrArg readChar? h
      rw [List.flatMap_cons, List.append_assoc, readChar?_quoteChar_append] at hread
      cases hread
  | cons c cs ih =>
    have hread := congrArg readChar? h
    rw [List.flatMap_cons, List.append_assoc, readChar?_quoteChar_append] at hread
    cases ds with
    | nil => cases hread
    | cons d ds =>
      rw [List.flatMap_cons, List.append_assoc, readChar?_quoteChar_append] at hread
      obtain ⟨rfl, hrest⟩ := Prod.mk.inj (Option.some.inj hread)
      obtain ⟨rfl, hrs⟩ := ih hrest
      exact ⟨rfl, hrs⟩

theorem toList_quote (s : String) :
    (quote s).toList = '"' :: (s.toList.flatMap quoteChar ++ ['"']) := by
  simp [quote]

theorem quote_append_inj {s t : String} {r r' : List Char}
    (h : (quote s).toList ++ r = (quote t).toList ++ r') : s = t ∧ r = r' := by
  simp only [toList_quote, List.cons_append, List.append_assoc, List.nil_append,
    List.cons.injEq, true_and] at h
  obtain ⟨hchars, hrest⟩ := flatMap_quoteChar_append_inj h
  exact ⟨String.toList_inj.1 hchars, hrest⟩

/-! ### Numbers -/

theorem isDigit_of_mem_repr {n : Nat} : ∀ c ∈ n.repr.toList, c.isDigit = true := by
  intro c hc
  rw [Nat.toList_repr] at hc
  exact Nat.isDigit_of_mem_toDigits (by decide) (by decide) hc

theorem repr_append_inj {n m : Nat} {c d : Char} {r s : List Char} (hc : c.isDigit = false)
    (hd : d.isDigit = false) (h : n.repr.toList ++ c :: r = m.repr.toList ++ d :: s) :
    n = m ∧ c :: r = d :: s := by
  obtain ⟨hdigits, hrest⟩ := append_cons_inj (p := fun a => a.isDigit = true)
    isDigit_of_mem_repr isDigit_of_mem_repr (by simp [hc]) (by simp [hd]) h
  exact ⟨Nat.repr_inj.1 (String.toList_inj.1 hdigits), hrest⟩

/-! ### Lists -/

section Lists

variable {α : Type} {spell : α → List Char} {close : Char}

/-- What stands where `a` is spelled, in front of something that is no digit, says that it is `a`
and where its spelling ends. -/
def ReadsAs (spell : α → List Char) (a : α) : Prop :=
  ∀ (b : α) (c d : Char) (r s : List Char), c.isDigit = false → d.isDigit = false →
    spell a ++ c :: r = spell b ++ d :: s → a = b ∧ c :: r = d :: s

/-- The spellings of the items behind the first, each behind a comma. -/
def more (spell : α → List Char) (as : List α) : List Char :=
  as.flatMap fun a => ',' :: spell a

/-- The spellings of a list with commas between them, and the bracket behind them. -/
def listed (spell : α → List Char) (close : Char) : List α → List Char
  | [] => [close]
  | a :: as => spell a ++ (more spell as ++ [close])

theorem more_cons (a : α) (as : List α) :
    more spell (a :: as) = ',' :: (spell a ++ more spell as) := rfl

theorem listed_map {β : Type} (f : β → α) (bs : List β) :
    listed spell close (bs.map f) = listed (fun b => spell (f b)) close bs := by
  cases bs with
  | nil => rfl
  | cons b bs => simp [listed, more, List.flatMap_map]

variable (spell) in
theorem exists_more_eq (hdigit : close.isDigit = false) (as : List α) (r : List Char) :
    ∃ c s, more spell as ++ close :: r = c :: s ∧ c.isDigit = false := by
  cases as with
  | nil => exact ⟨close, r, rfl, hdigit⟩
  | cons a as => exact ⟨',', _, rfl, by decide⟩

theorem ReadsAs.append_more_inj {a b : α} (ha : ReadsAs spell a) (hdigit : close.isDigit = false)
    {as bs : List α} {r s : List Char}
    (h : spell a ++ (more spell as ++ close :: r) = spell b ++ (more spell bs ++ close :: s)) :
    a = b ∧ more spell as ++ close :: r = more spell bs ++ close :: s := by
  obtain ⟨c, x, hx, hc⟩ := exists_more_eq spell hdigit as r
  obtain ⟨d, y, hy, hd⟩ := exists_more_eq spell hdigit bs s
  rw [hx, hy] at h ⊢
  exact ha b c d x y hc hd h

theorem more_append_inj (hdigit : close.isDigit = false) (hcomma : close ≠ ',') {as bs : List α}
    (has : ∀ a ∈ as, ReadsAs spell a) {r s : List Char}
    (h : more spell as ++ close :: r = more spell bs ++ close :: s) : as = bs ∧ r = s := by
  induction as generalizing bs with
  | nil =>
    cases bs with
    | nil => exact ⟨rfl, (List.cons.inj h).2⟩
    | cons b bs => exact absurd (List.cons.inj h).1 hcomma
  | cons a as ih =>
    cases bs with
    | nil => exact absurd (List.cons.inj h).1.symm hcomma
    | cons b bs =>
      simp only [more_cons, List.cons_append, List.append_assoc, List.cons.injEq, true_and] at h
      obtain ⟨ha, has⟩ := List.forall_mem_cons.1 has
      obtain ⟨rfl, hmore⟩ := ha.append_more_inj hdigit h
      obtain ⟨rfl, hrs⟩ := ih has hmore
      exact ⟨rfl, hrs⟩

/-- **A list ends at its bracket**, if no item starts with it. -/
theorem listed_append_inj (hdigit : close.isDigit = false) (hcomma : close ≠ ',')
    (hfirst : ∀ (a : α) (r s : List Char), spell a ++ r ≠ close :: s) {as bs : List α}
    (has : ∀ a ∈ as, ReadsAs spell a) {r s : List Char}
    (h : listed spell close as ++ r = listed spell close bs ++ s) : as = bs ∧ r = s := by
  cases as with
  | nil =>
    cases bs with
    | nil => exact ⟨rfl, (List.cons.inj h).2⟩
    | cons b bs =>
      rw [listed, listed, List.append_assoc] at h
      exact absurd h.symm (hfirst b _ _)
  | cons a as =>
    cases bs with
    | nil =>
      rw [listed, listed, List.append_assoc] at h
      exact absurd h (hfirst a _ _)
    | cons b bs =>
      simp only [listed, List.append_assoc, List.singleton_append] at h
      obtain ⟨ha, has⟩ := List.forall_mem_cons.1 has
      obtain ⟨rfl, hmore⟩ := ha.append_more_inj hdigit h
      obtain ⟨rfl, hrs⟩ := more_append_inj hdigit hcomma has hmore
      exact ⟨rfl, hrs⟩

variable (close) in
theorem toList_intercalate_append (spellings : List String) :
    (",".intercalate spellings).toList ++ [close] = listed String.toList close spellings := by
  rw [String.toList_intercalate]
  cases spellings with
  | nil => rfl
  | cons x xs =>
    rw [listed, ← List.append_assoc]
    congr 1
    induction xs generalizing x with
    | nil => simp [more]
    | cons y ys ih => simpa [List.intercalate_cons_cons, more_cons] using ih y

end Lists

/-! ### Values -/

/-- Whether the compact spelling of a value starts with this character. -/
def opens : Json → Char → Bool
  | .null, c => c == 'n'
  | .number _, c => c.isDigit
  | .string _, c => c == '"'
  | .array _, c => c == '['
  | .object _, c => c == '\x7b'

/-- The characters of a field of an object. -/
def spellField (field : String × Json) : List Char :=
  (quote field.1).toList ++ ':' :: field.2.compact.toList

theorem compactItems_eq_map (items : List Json) : compactItems items = items.map compact := by
  induction items with
  | nil => rfl
  | cons item items ih => rw [compactItems, ih, List.map_cons]

theorem compactFields_eq_map (fields : List (String × Json)) :
    compactFields fields = fields.map fun field => String.ofList (spellField field) := by
  induction fields with
  | nil => rfl
  | cons field fields ih =>
    obtain ⟨key, value⟩ := field
    have hfield : quote key ++ ":" ++ compact value = String.ofList (spellField (key, value)) := by
      rw [← String.toList_inj]
      simp [spellField]
    rw [compactFields, ih, List.map_cons, hfield]

theorem toList_compact_array (items : List Json) :
    (Json.array items).compact.toList =
      '[' :: listed (fun item => item.compact.toList) ']' items := by
  have hlisted := toList_intercalate_append ']' (items.map compact)
  rw [listed_map] at hlisted
  rw [← hlisted, compact, compactItems_eq_map]
  simp

theorem toList_compact_object (fields : List (String × Json)) :
    (Json.object fields).compact.toList = '\x7b' :: listed spellField '\x7d' fields := by
  have hlisted := toList_intercalate_append '\x7d'
    (fields.map fun field => String.ofList (spellField field))
  simp only [listed_map, String.toList_ofList] at hlisted
  rw [← hlisted, compact, compactFields_eq_map]
  simp

theorem exists_compact_eq (value : Json) :
    ∃ c r, value.compact.toList = c :: r ∧ value.opens c = true := by
  cases value with
  | null => exact ⟨'n', "ull".toList, by rw [compact]; rfl, rfl⟩
  | number n =>
    have hne : n.repr.toList ≠ [] := by
      rw [Nat.toList_repr]
      exact Nat.toDigits_ne_nil
    obtain ⟨c, r, hcr⟩ := List.exists_cons_of_ne_nil hne
    have hmem : c ∈ n.repr.toList := by
      rw [hcr]
      exact List.mem_cons_self
    exact ⟨c, r, by rw [compact, hcr], isDigit_of_mem_repr c hmem⟩
  | string s => exact ⟨'"', _, by rw [compact, toList_quote], rfl⟩
  | array items => exact ⟨'[', _, toList_compact_array items, rfl⟩
  | object fields => exact ⟨'\x7b', _, toList_compact_object fields, rfl⟩

theorem exists_opens {a b : Json} {r s : List Char}
    (h : a.compact.toList ++ r = b.compact.toList ++ s) :
    ∃ c, a.opens c = true ∧ b.opens c = true := by
  obtain ⟨c, x, hx, hc⟩ := a.exists_compact_eq
  obtain ⟨d, y, hy, hd⟩ := b.exists_compact_eq
  rw [hx, hy] at h
  obtain rfl : c = d := (List.cons.inj h).1
  exact ⟨c, hc, hd⟩

theorem compact_append_ne_closing (value : Json) (r s : List Char) :
    value.compact.toList ++ r ≠ ']' :: s := by
  intro h
  obtain ⟨c, x, hx, hc⟩ := value.exists_compact_eq
  rw [hx] at h
  obtain rfl : c = ']' := (List.cons.inj h).1
  cases value <;> exact absurd hc (by simp [opens])

/-- A field is read as its key and its value. -/
theorem readsAs_spellField {field : String × Json}
    (h : ReadsAs (fun value : Json => value.compact.toList) field.2) :
    ReadsAs spellField field := by
  intro field' c d r s hc hd heq
  simp only [spellField, List.append_assoc, List.cons_append] at heq
  obtain ⟨hkey, hvalue⟩ := quote_append_inj heq
  obtain ⟨hvalue, hrest⟩ := h field'.2 c d r s hc hd (List.cons.inj hvalue).2
  exact ⟨Prod.ext hkey hvalue, hrest⟩

/-- **Where a value starts, what stands there says which one it is and where it ends**, if no digit
follows it. -/
theorem compact_append_inj (a : Json) :
    ReadsAs (fun value : Json => value.compact.toList) a := by
  intro b c d r s hc hd h
  -- both values are of one kind, since they open with one character
  have hopens := exists_opens h
  induction a generalizing b c d r s with
  | null =>
    cases b with
    | null => exact ⟨rfl, List.append_cancel_left h⟩
    | _ => simp [opens] at hopens
  | number n =>
    cases b with
    | number m =>
      simp only [compact] at h
      obtain ⟨rfl, hrest⟩ := repr_append_inj hc hd h
      exact ⟨rfl, hrest⟩
    | _ => simp [opens] at hopens
  | string x =>
    cases b with
    | string y =>
      simp only [compact] at h
      obtain ⟨rfl, hrest⟩ := quote_append_inj h
      exact ⟨rfl, hrest⟩
    | _ => simp [opens] at hopens
  | array items ih =>
    cases b with
    | array items' =>
      simp only [toList_compact_array, List.cons_append, List.cons.injEq, true_and] at h
      have hitems : ∀ item ∈ items, ReadsAs (fun value : Json => value.compact.toList) item :=
        fun item hitem b c d r s hc hd h => ih item hitem b c d r s hc hd h (exists_opens h)
      obtain ⟨rfl, hrest⟩ := listed_append_inj (by decide) (by decide)
        compact_append_ne_closing hitems h
      exact ⟨rfl, hrest⟩
    | _ => simp [opens] at hopens
  | object fields ih =>
    cases b with
    | object fields' =>
      simp only [toList_compact_object, List.cons_append, List.cons.injEq, true_and] at h
      have hfields : ∀ field ∈ fields, ReadsAs spellField field :=
        fun field hfield => readsAs_spellField fun b c d r s hc hd h =>
          ih field hfield b c d r s hc hd h (exists_opens h)
      -- a field starts with a quote, so the brace cannot be taken for one
      have hfirst : ∀ (field : String × Json) (r s : List Char),
          spellField field ++ r ≠ '\x7d' :: s := by
        intro field r s
        simp [spellField, toList_quote]
      obtain ⟨rfl, hrest⟩ := listed_append_inj (by decide) (by decide) hfirst hfields h
      exact ⟨rfl, hrest⟩
    | _ => simp [opens] at hopens

/-- **No two values are spelled alike.** -/
theorem compact_inj {a b : Json} : a.compact = b.compact ↔ a = b := by
  refine ⟨fun h => ?_, fun h => h ▸ rfl⟩
  have hline : a.compact.toList ++ '\n' :: [] = b.compact.toList ++ '\n' :: [] := by rw [h]
  exact (compact_append_inj a b _ _ _ _ (by decide) (by decide) hline).1

end Json

end DiagnosticReport
