import DiagnosticReport.Toml.Value

/-!
# How tables grow

The lines of a TOML text add to one tree of tables. A header leads through any table that is not
inline and through the last of an array of tables; a dotted key leads only through tables that no
header has defined. Neither redefines what is there: a header may name a table once, and a key may
be set once.
-/

namespace DiagnosticReport

namespace Toml

/-- What leads to a table: the path of a header, or the front part of a dotted key. -/
inductive Way where
  | header
  | dotted
  deriving DecidableEq

namespace Way

/-- How a table is defined that comes into being on the way. -/
def newKind : Way → TableKind
  | .header => .implied
  | .dotted => .dotted

/-- Whether a table may be entered on the way. -/
def mayEnter : Way → TableKind → Bool
  | .header, kind => kind != .inline
  | .dotted, kind => kind == .implied || kind == .dotted

end Way

namespace Entries

/-- Changes the table at the end of a path; tables that are missing on the way come into being. -/
def modifyAt (way : Way) (change : TableKind → Entries → Option Entries) :
    List String → TableKind → Entries → Option Entries
  | [], kind, entries => change kind entries
  | key :: path, _, entries =>
    match entries.lookup key with
    | none => do
      let inner ← modifyAt way change path way.newKind []
      some (entries ++ [(key, .table way.newKind inner)])
    | some (.table kind inner) =>
      if way.mayEnter kind then do
        let inner ← modifyAt way change path kind inner
        some (entries.replace key (.table kind inner))
      else none
    | some (.tables elements) => do
      let last ← modifyAt way change path .header (← elements.getLast?)
      some (entries.replace key (.tables (elements.dropLast ++ [last])))
    | some _ => none

/-- Sets a dotted key in a table of a kind. A table that dotted keys have defined takes further
keys by dotted keys only, and any other table only keys without a path. -/
def assign (path : List String) (key : String) (value : Value) :
    TableKind → Entries → Option Entries :=
  modifyAt .dotted (fun kind entries =>
    if (kind == .dotted) == path.isEmpty || (entries.lookup key).isSome then none
    else some (entries ++ [(key, value)])) path

/-- Defines a table by its header; it may have come into being on the way to another. -/
def openTable (path : List String) (key : String) : TableKind → Entries → Option Entries :=
  modifyAt .header (fun _ entries =>
    match entries.lookup key with
    | none => some (entries ++ [(key, .table .header [])])
    | some (.table .implied inner) => some (entries.replace key (.table .header inner))
    | some _ => none) path

/-- Adds a table to an array of tables. -/
def appendTable (path : List String) (key : String) : TableKind → Entries → Option Entries :=
  modifyAt .header (fun _ entries =>
    match entries.lookup key with
    | none => some (entries ++ [(key, .tables [[]])])
    | some (.tables elements) => some (entries.replace key (.tables (elements ++ [[]])))
    | some _ => none) path

end Entries

/-- What a line of a TOML text says, blank lines and comments apart. -/
inductive Statement where
  /-- The lines below belong to this table. -/
  | header (path : List String) (key : String)
  /-- The lines below belong to a new table of this array. -/
  | element (path : List String) (key : String)
  /-- A key has a value. -/
  | assignment (path : List String) (key : String) (value : Value)

/-- The tree of tables while lines are added to it. -/
structure Tree where
  /-- The table that holds all others. -/
  root : Entries := []
  /-- Where the table is that the lines belong to. -/
  current : List String := []

namespace Tree

/-- Adds a line to the tree. -/
def add (t : Tree) : Statement → Option Tree
  | .header path key => do
    return { root := ← t.root.openTable path key .header, current := path ++ [key] }
  | .element path key => do
    return { root := ← t.root.appendTable path key .header, current := path ++ [key] }
  | .assignment path key value => do
    let root ← t.root.modifyAt .header (fun kind entries => entries.assign path key value kind)
      t.current .header
    return { t with root }

/-- The tree that lines add up to. -/
def ofStatements (statements : List Statement) : Option Tree :=
  statements.foldlM add {}

end Tree

end Toml

end DiagnosticReport
