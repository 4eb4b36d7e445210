import DiagnosticReport.Report.Category
import DiagnosticReport.Text.Cut

/-!
# Classification

The category of a diagnostic is read off its text: by the words it starts with, or else by words
that it holds. Rules are tried in order and the first that fits decides; a text that no rule fits
belongs to `Category.other`.
-/

namespace DiagnosticReport

namespace Category

/-- Words at the start of a text, with the category of such texts. -/
def openings : List (String × Category) :=
  [("undefined reference to function", .undefinedFunctionReference),
    ("undefined reference to variable", .undefinedVariableReference),
    ("calling external", .callingExternal),
    ("calling __user_main with extra arguments", .callingUserMain),
    ("Large alloc", .largeAlloc),
    ("execve", .execve),
    ("executable has module level assembly", .moduleLevelAssembly),
    ("unable to load symbol", .symbolLoading),
    ("failed external call", .externalCall)]

/-- Words anywhere in a text, with the category of such texts. -/
def phrases : List (String × Category) :=
  [("has inline asm", .inlineAsm),
    ("silently ignoring", .silentlyIgnoring),
    ("when main() has less than two arguments", .posixRuntime)]

/-- The category of the first rule whose words stand at the start of the text. -/
def byOpening? (rules : List (String × Category)) (text : List Char) : Option Category :=
  (rules.find? fun rule => rule.1.toList.isPrefixOf text).map Prod.snd

/-- The category of the first rule whose words occur in the text. -/
def byPhrase? (rules : List (String × Category)) (text : List Char) : Option Category :=
  (rules.find? fun rule => Text.occursIn rule.1.toList text).map Prod.snd

/-- The category of a diagnostic text. -/
def ofText (text : String) : Category :=
  ((byOpening? openings text.toList).or (byPhrase? phrases text.toList)).getD .other

end Category

end DiagnosticReport
