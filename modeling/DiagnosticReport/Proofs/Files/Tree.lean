import DiagnosticReport.Files.Tree

/-!
# What operations on files change

Whoever reads files changes none of them, and neither does whoever fails to write one: that is what
a careful access to files is (`FileAccess.Careful`). A tree of files is accessed carefully
(`FileTree.access_careful`). A file that is written appears at the place that its path leads to, and
nothing changes at any other place (`FileTree.node?_written`). Whether it can be written does not
depend on its contents (`FileTree.written_eq_ok_iff`), and the same path leads to it when it is read
again (`FileTree.read_written`).
-/

namespace DiagnosticReport

/-- Access to files, as they are in a state `σ`, that changes nothing but by writing. -/
structure FileAccess.Careful {σ : Type} (files : FileAccess (StateM σ)) : Prop where
  /-- To read a file changes nothing. -/
  read : ∀ path s, ((files.read path).run s).2 = s
  /-- To fail to write a file changes nothing. -/
  write : ∀ path contents s error, ((files.write path contents).run s).1 = .error error →
    ((files.write path contents).run s).2 = s

namespace FileTree

variable {t t' : FileTree} {path : String} {place : List String} {contents : ByteArray}

theorem lookup_filter_ne {other : List String} (h : other ≠ place)
    (nodes : List (List String × FileNode)) :
    (nodes.filter fun entry => entry.1 != place).lookup other = nodes.lookup other := by
  induction nodes with
  | nil => rfl
  | cons entry nodes ih =>
    obtain ⟨there, node⟩ := entry
    by_cases hthere : there = place
    · have hne : (other == there) = false := beq_false_of_ne (hthere ▸ h)
      rw [List.filter_cons_of_neg (by simp [hthere]), List.lookup_cons, hne, ih]
    · rw [List.filter_cons_of_pos (by simp [hthere]), List.lookup_cons, List.lookup_cons, ih]

theorem node?_put (hplace : place ≠ []) (node : FileNode) (other : List String) :
    (t.put place node).node? other = if other = place then some node else t.node? other := by
  unfold node? put
  by_cases heq : other = place
  · subst heq
    simp [hplace]
  · have hne : (other == place) = false := beq_false_of_ne heq
    rw [if_neg heq, List.lookup_cons, hne, lookup_filter_ne heq]

theorem exists_of_bind_eq_ok {ε α β : Type} {x : Except ε α} {f : α → Except ε β} {b : β}
    (h : x >>= f = .ok b) : ∃ a, x = .ok a ∧ f a = .ok b := by
  cases x with
  | error error => cases h
  | ok a => exact ⟨a, rfl, h⟩

/-! ### Writing -/

/-- A file can be written to the place that a path leads to. -/
structure Writable (t : FileTree) (path : String) (place : List String) : Prop where
  /-- The path leads there. -/
  locate : t.locate path = .ok place
  /-- It does not ask for a directory. -/
  noSlash : endsInSlash path = false
  /-- The last name is not too long. -/
  find : t.find place = .ok (t.node? place)
  /-- There is no directory at the place. -/
  noDirectory : t.node? place ≠ some .directory

theorem node?_of_find {node? : Option FileNode} (h : t.find place = .ok node?) :
    t.node? place = node? := by
  unfold find at h
  split at h
  next => cases h
  next => exact Except.ok.inj h

/-- **A file that can be written** is put at the place that its path leads to; its contents have no
part in whether it can be. -/
theorem written_eq_ok_iff :
    t.written path contents = .ok t' ↔
      ∃ place, t.Writable path place ∧ t' = t.put place (.file contents) := by
  constructor
  · intro h
    obtain ⟨place, hlocate, h⟩ := exists_of_bind_eq_ok h
    by_cases hslash : endsInSlash path = true
    · rw [if_pos hslash] at h
      cases h
    rw [if_neg hslash] at h
    obtain ⟨node?, hfind, h⟩ := exists_of_bind_eq_ok h
    obtain rfl := node?_of_find hfind
    have hwritable : t.node? place ≠ some .directory ∧ t' = t.put place (.file contents) := by
      split at h
      next => cases h
      next hnode => exact ⟨hnode, (Except.ok.inj h).symm⟩
    exact ⟨place, ⟨hlocate, by simpa using hslash, hfind, hwritable.1⟩, hwritable.2⟩
  · rintro ⟨place, ⟨hlocate, hslash, hfind, hnode⟩, rfl⟩
    simp only [written, hlocate, hslash, hfind, bind, Except.bind, Bool.false_eq_true, if_false]

theorem Writable.place_ne (h : t.Writable path place) : place ≠ [] := by
  rintro rfl
  exact h.noDirectory rfl

/-- **What a file that is written changes**: there is one place at which it stands afterwards, and
nothing changes at any other place. -/
theorem node?_written (h : t.written path contents = .ok t') :
    ∃ place, t.locate path = .ok place ∧ ∀ other,
      t'.node? other = if other = place then some (.file contents) else t.node? other := by
  obtain ⟨place, hwritable, rfl⟩ := written_eq_ok_iff.1 h
  exact ⟨place, hwritable.locate, node?_put hwritable.place_ne _⟩

/-! ### Reading what has been written -/

theorem find_put (hplace : place ≠ []) (node : FileNode) {other : List String}
    {node? : Option FileNode} (h : t.find other = .ok node?) :
    (t.put place node).find other = .ok (if other = place then some node else node?) := by
  obtain rfl := node?_of_find h
  unfold find at h ⊢
  split at h
  next => cases h
  next hshort => rw [if_neg hshort, node?_put hplace]

/-- Names lead where they led before something was put at a place where no directory was. -/
theorem walk_put (hplace : place ≠ []) (hnode : t.node? place ≠ some .directory)
    (node : FileNode) {start reached : List String} {names : List String}
    (h : t.walk start names = .ok reached) : (t.put place node).walk start names = .ok reached := by
  induction names generalizing start with
  | nil => exact h
  | cons name names ih =>
    cases hfind : t.find start with
    | error error => simp [walk, hfind] at h
    | ok node? =>
      match node? with
      | none => simp [walk, hfind] at h
      | some (.file _) => simp [walk, hfind] at h
      | some .directory =>
        -- the names pass through directories only, so not through the place
        have hne : start ≠ place := fun heq => hnode (heq ▸ node?_of_find hfind)
        have hfind' := find_put hplace node hfind
        rw [if_neg hne] at hfind'
        simp only [walk, hfind] at h
        simp only [walk, hfind']
        exact ih h

theorem locate_put (h : t.Writable path place) (node : FileNode) :
    (t.put place node).locate path = .ok place := by
  have hbefore := h.locate
  unfold locate at hbefore ⊢
  split at hbefore
  next => cases hbefore
  split at hbefore
  next => cases hbefore
  split at hbefore
  next => cases hbefore
  next hnul hempty hshort =>
    rw [if_neg hnul, if_neg hempty, if_neg hshort]
    exact walk_put h.place_ne h.noDirectory node hbefore

/-- **A file that has been written** can be read, and holds what was written. -/
theorem read_written (h : t.written path contents = .ok t') : t'.read path = .ok contents := by
  obtain ⟨place, hwritable, rfl⟩ := written_eq_ok_iff.1 h
  have hlocate := locate_put hwritable (.file contents)
  have hfind := find_put hwritable.place_ne (.file contents) hwritable.find
  rw [if_pos rfl] at hfind
  simp [read, hlocate, hfind, hwritable.noSlash, bind, Except.bind]

/-! ### Access -/

theorem access_careful : access.Careful where
  read _ _ := rfl
  write path contents t error h := by
    change (t.write path contents).1 = .error error at h
    show (t.write path contents).2 = t
    unfold write at h ⊢
    cases hwritten : t.written path contents with
    | error error => rfl
    | ok after =>
      rw [hwritten] at h
      cases h

theorem written_of_access (h : ((access.write path contents).run t).1 = .ok ()) :
    t.written path contents = .ok ((access.write path contents).run t).2 := by
  change (t.write path contents).1 = .ok () at h
  show t.written path contents = .ok (t.write path contents).2
  unfold write at h ⊢
  cases hwritten : t.written path contents with
  | error error =>
    rw [hwritten] at h
    cases h
  | ok after => rfl

end FileTree

end DiagnosticReport
