/-!
# Categories of diagnostics

Every diagnostic text belongs to one category. Two of the categories are hard failures of the
analysis (`FailureKind`), the others are informational. A category, a kind and a class each have
one identifier, which is what reports and listings show.
-/

namespace DiagnosticReport

/-- Whether a diagnostic tells of a failure of the analysis or merely informs. -/
inductive FindingClass where
  | info
  | failure
  deriving DecidableEq

/-- What a diagnostic is about. -/
inductive Category where
  | undefinedFunctionReference
  | undefinedVariableReference
  | callingExternal
  | callingUserMain
  | largeAlloc
  | execve
  | moduleLevelAssembly
  | inlineAsm
  | silentlyIgnoring
  | posixRuntime
  | symbolLoading
  | externalCall
  | other
  deriving DecidableEq

/-- The categories that are hard failures. -/
inductive FailureKind where
  | symbolLoading
  | externalCall
  deriving DecidableEq

/-- The identifier of a class. -/
def FindingClass.identifier : FindingClass → String
  | .info => "info"
  | .failure => "failure"

namespace Category

/-- All categories, in the order in which they are listed. -/
def all : List Category :=
  [.undefinedFunctionReference, .undefinedVariableReference, .callingExternal, .callingUserMain,
    .largeAlloc, .execve, .moduleLevelAssembly, .inlineAsm, .silentlyIgnoring, .posixRuntime,
    .symbolLoading, .externalCall, .other]

theorem mem_all (c : Category) : c ∈ all := by
  cases c <;> decide

/-- The identifier of a category. -/
def identifier : Category → String
  | .undefinedFunctionReference => "undefined-function-reference"
  | .undefinedVariableReference => "undefined-variable-reference"
  | .callingExternal => "calling-external"
  | .callingUserMain => "calling-user-main"
  | .largeAlloc => "large-alloc"
  | .execve => "execve"
  | .moduleLevelAssembly => "module-level-assembly"
  | .inlineAsm => "inline-asm"
  | .silentlyIgnoring => "silently-ignoring"
  | .posixRuntime => "posix-runtime"
  | .symbolLoading => "symbol-loading"
  | .externalCall => "external-call"
  | .other => "other"

/-- The category with an identifier. -/
def ofIdentifier? (s : String) : Option Category :=
  all.find? fun c => c.identifier == s

/-- The kind of failure that a category stands for, if it stands for one. -/
def failureKind? : Category → Option FailureKind
  | .symbolLoading => some .symbolLoading
  | .externalCall => some .externalCall
  | _ => none

/-- The class of a category. -/
def findingClass (c : Category) : FindingClass :=
  if c.failureKind?.isSome then .failure else .info

end Category

namespace FailureKind

/-- The category that a kind of failure stands for. -/
def category : FailureKind → Category
  | .symbolLoading => .symbolLoading
  | .externalCall => .externalCall

/-- The identifier of a kind of failure is that of its category. -/
def identifier (k : FailureKind) : String :=
  k.category.identifier

/-- A category that was asked for as a kind of failure and is none. -/
structure Unsanctioned where
  /-- The category that is no kind of failure. -/
  category : Category
  deriving DecidableEq

/-- The wording of the refusal. -/
def Unsanctioned.message (e : Unsanctioned) : String :=
  "'" ++ e.category.identifier ++ "' is not a failure identifier"

/-- The kind of failure that a category stands for, or the refusal. -/
def ofCategory (c : Category) : Except Unsanctioned FailureKind :=
  match c.failureKind? with
  | some kind => .ok kind
  | none => .error ⟨c⟩

end FailureKind

/-- A category stands for a kind of failure exactly if it is the category of that kind. -/
theorem Category.failureKind?_eq_some_iff {c : Category} {k : FailureKind} :
    c.failureKind? = some k ↔ k.category = c := by
  cases c <;> cases k <;> simp [Category.failureKind?, FailureKind.category]

end DiagnosticReport
