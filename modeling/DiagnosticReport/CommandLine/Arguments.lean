import DiagnosticReport.Settings.Basic
import DiagnosticReport.Text.Cut

/-!
# Command line arguments

Options have a long name and perhaps a letter; letters may share one dash. A value stands behind
the name and `=`, directly behind the letter, or in the next argument, which then does not start
with a dash. An option is given at most once before and once behind the command, and the second
counts. `--` ends the options, and a lone dash is an ordinary argument.

Help is left out, as the help texts are: `-h`, `--help` and the command `help` are refused here like
any other name that is not known, while the program prints a help text and ends with code 0. What is
told when arguments are refused is left out as well.
-/

namespace DiagnosticReport

namespace CommandLine

/-- The options of the program. -/
inductive OptionName where
  | quiet
  | verbose
  | version
  | aggregate
  | logLevel
  | config
  | output
  | format
  deriving DecidableEq

namespace OptionName

/-- The long name of an option. -/
def long : OptionName → String
  | .quiet => "quiet"
  | .verbose => "verbose"
  | .version => "version"
  | .aggregate => "aggregate"
  | .logLevel => "log-level"
  | .config => "config"
  | .output => "output"
  | .format => "format"

/-- The letter of an option, if it has one. -/
def letter? : OptionName → Option Char
  | .quiet => some 'q'
  | .verbose => some 'v'
  | .version => some 'V'
  | .output => some 'o'
  | .format => some 'f'
  | .aggregate | .logLevel | .config => none

/-- Whether an option has a value. -/
def takesValue : OptionName → Bool
  | .logLevel | .config | .output | .format => true
  | .quiet | .verbose | .version | .aggregate => false

/-- Whether a value is allowed. -/
def admits : OptionName → String → Bool
  | .format, value => (Rendering.ofName? value).isSome
  | _, _ => true

end OptionName

/-- Where on the command line an argument stands: before the command or behind it. -/
inductive Level where
  | root
  | classify
  | report
  deriving DecidableEq

namespace Level

/-- The options that may be given at a level. -/
def options : Level → List OptionName
  | .root => [.quiet, .verbose, .logLevel, .config, .version]
  | .classify => [.quiet, .verbose, .logLevel, .config]
  | .report => [.quiet, .verbose, .logLevel, .config, .output, .format, .aggregate]

/-- The level behind a command. -/
def ofCommand? : String → Option Level
  | "classify" => some .classify
  | "report" => some .report
  | _ => none

/-- The option with a long name. -/
def ofLong? (level : Level) (label : List Char) : Option OptionName :=
  level.options.find? fun name => name.long.toList == label

/-- The option with a letter. -/
def ofLetter? (level : Level) (letter : Char) : Option OptionName :=
  level.options.find? fun name => name.letter? == some letter

end Level

/-- Why arguments name no command to run. -/
inductive Refusal where
  /-- The version of the program is asked for. -/
  | version
  /-- The arguments are not as they should be. -/
  | usage
  deriving DecidableEq

/-- The options that have been given, with their values; a switch has the empty value. -/
abbrev Given := List (OptionName × String)

/-- Takes note of an option. To ask for the version ends everything. -/
def give (given : Given) (name : OptionName) (value : String) : Except Refusal Given :=
  if name = .version then .error .version
  else if (given.lookup name).isSome || !name.admits value then .error .usage
  else .ok (given ++ [(name, value)])

/-- The form of an argument. -/
inductive Shape where
  /-- Two dashes. -/
  | escape
  /-- What stands behind two dashes. -/
  | long (body : List Char)
  /-- What stands behind one dash. -/
  | letters (body : List Char)
  /-- An argument that is no option. -/
  | word

/-- The form of an argument. -/
def shape : List Char → Shape
  | ['-', '-'] => .escape
  | '-' :: '-' :: body => .long body
  | '-' :: c :: cs => .letters (c :: cs)
  | _ => .word

/-- Reads letters behind a dash: the options given then, and one whose value is yet to come. -/
def readLetters (level : Level) (given : Given) :
    List Char → Except Refusal (Given × Option OptionName)
  | [] => .ok (given, none)
  | c :: cs =>
    match level.ofLetter? c with
    | none => .error .usage
    | some name =>
      if name.takesValue then
        match cs with
        | [] => .ok (given, some name)
        | '=' :: value => (give given name (String.ofList value)).map fun given => (given, none)
        | value => (give given name (String.ofList value)).map fun given => (given, none)
      else
        match give given name "" with
        | .error refusal => .error refusal
        | .ok given => readLetters level given cs

/-- Reads a long name: the options given then, and one whose value is yet to come. -/
def readLong (level : Level) (given : Given) (body : List Char) :
    Except Refusal (Given × Option OptionName) :=
  let (label, value?) :=
    match Text.cut? ['='] body with
    | some (label, value) => (label, some (String.ofList value))
    | none => (body, none)
  match level.ofLong? label with
  | none => .error .usage
  | some name =>
    match name.takesValue, value? with
    | true, none => .ok (given, some name)
    | true, some value => (give given name value).map fun given => (given, none)
    | false, none => (give given name "").map fun given => (given, none)
    | false, some _ => .error .usage

/-- Reads an argument that starts with a dash. -/
def readOption (level : Level) (given : Given) (shape : Shape) :
    Except Refusal (Given × Option OptionName) :=
  match shape with
  | .long body => readLong level given body
  | .letters body => readLetters level given body
  | .escape | .word => .error .usage

/-- Reads up to the command: the options before it, the level behind it, and what is left. -/
def readRoot (given : Given) (awaited : Option OptionName) :
    List String → Except Refusal (Given × Level × List String)
  | [] => .error .usage
  | arg :: args =>
    match awaited, shape arg.toList with
    | some name, .word =>
      match give given name arg with
      | .error refusal => .error refusal
      | .ok given => readRoot given none args
    | some _, _ => .error .usage
    | none, .word =>
      match Level.ofCommand? arg with
      | none => .error .usage
      | some level => .ok (given, level, args)
    | none, shape =>
      match readOption .root given shape with
      | .error refusal => .error refusal
      | .ok (given, awaited) => readRoot given awaited args

/-- Reads what stands behind the command: the options and the other arguments. -/
def readBehind (level : Level) (given : Given) (words : List String) (awaited : Option OptionName) :
    List String → Except Refusal (Given × List String)
  | [] => if awaited.isSome then .error .usage else .ok (given, words)
  | arg :: args =>
    match awaited, shape arg.toList with
    | some name, .word =>
      match give given name arg with
      | .error refusal => .error refusal
      | .ok given => readBehind level given words none args
    | some _, _ => .error .usage
    | none, .word => readBehind level given (words ++ [arg]) none args
    | none, .escape => .ok (given, words ++ args)
    | none, shape =>
      match readOption level given shape with
      | .error refusal => .error refusal
      | .ok (given, awaited) => readBehind level given words awaited args

/-- What concerns all commands. -/
structure CommonOptions where
  /-- Whether only errors are told. -/
  quiet : Bool
  /-- Whether more is told. -/
  verbose : Bool
  /-- The least level of what is logged. -/
  logLevel : String
  /-- The file with the settings, if one is named. -/
  config : Option String
  deriving DecidableEq

/-- What concerns the report of a log. -/
structure ReportRequest where
  /-- The file with the log. -/
  log : String
  /-- Where the document is streamed to, if that is said. -/
  output : Option String
  /-- How the final report is printed, if that is said. -/
  format : Option Rendering
  /-- Whether findings of events are kept for the final report, whatever the settings say. -/
  aggregate : Bool
  deriving DecidableEq

/-- A command. -/
inductive Command where
  /-- Prints the category of each text. -/
  | classify (messages : List String)
  /-- Makes a report of a recorded log. -/
  | report (arguments : ReportRequest)
  deriving DecidableEq

/-- A command with the options that concern all commands. -/
structure Invocation where
  /-- What concerns all commands. -/
  common : CommonOptions
  /-- The command. -/
  command : Command
  deriving DecidableEq

/-- The level of what is logged if nothing is said. -/
def defaultLogLevel : String := "warn"

/-- The command that options and other arguments make up. -/
def command (level : Level) (given : Given) (words : List String) : Except Refusal Command :=
  match level, words with
  | .classify, message :: messages => .ok (.classify (message :: messages))
  | .report, [log] =>
    .ok (.report
      { log
        output := given.lookup .output
        format := (given.lookup .format).bind Rendering.ofName?
        aggregate := (given.lookup .aggregate).isSome })
  | _, _ => .error .usage

/-- The options that concern all commands, of which those behind the command count first. -/
def commonOptions (before behind : Given) : CommonOptions :=
  let given := behind ++ before
  { quiet := (given.lookup .quiet).isSome
    verbose := (given.lookup .verbose).isSome
    logLevel := (given.lookup .logLevel).getD defaultLogLevel
    config := given.lookup .config }

/-- The command that arguments name. -/
def parse (args : List String) : Except Refusal Invocation := do
  let (before, level, rest) ← readRoot [] none args
  let (behind, words) ← readBehind level [] [] none rest
  return { common := commonOptions before behind, command := ← command level behind words }

end CommandLine

end DiagnosticReport
