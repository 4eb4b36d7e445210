import DiagnosticReport.CommandLine.Arguments
import DiagnosticReport.Diagnostic.Transcript
import DiagnosticReport.Files.Access
import DiagnosticReport.Replay
import DiagnosticReport.Settings.Decode
import DiagnosticReport.Text.Bytes

/-!
# Running commands

What a command line comes to: what is printed, what is told on the error channel, the exit code,
and which file is written. Nothing is printed and no file is written before everything that can
fail has been done, so a command that fails leaves nothing behind.
-/

namespace DiagnosticReport

namespace CommandLine

/-- What a run of the program shows. -/
structure Outcome where
  /-- The exit code. -/
  code : Nat
  /-- What is printed. -/
  stdout : String := ""
  /-- What is told besides. -/
  stderr : String := ""
  deriving DecidableEq

/-- Why a command failed. -/
inductive RunError where
  /-- The settings could not be read. -/
  | settingsUnread (path : String) (error : FileError)
  /-- The settings are not usable. -/
  | settings (problem : Settings.Problem)
  /-- The log could not be read or the document could not be written. -/
  | file (error : FileError)
  /-- The document could not be streamed. -/
  | report (error : ReportError)
  deriving DecidableEq

/-- The wording of an error. -/
def RunError.message : RunError → String
  | .settingsUnread path error => "cannot read " ++ path ++ ": " ++ error.message
  | .settings problem => problem.message
  | .file error => error.message
  | .report error => error.message

/-- The lines that a text is told in. -/
def tell (text : String) : String :=
  text ++ "\n"

/-- The names of the levels of what is logged. -/
def logLevels : List String :=
  ["off", "error", "warn", "info", "debug", "trace"]

/-- Whether a text names a level, in capitals or not. -/
def isLogLevel (s : String) : Bool :=
  logLevels.contains (String.ofList (s.toList.map Char.toLower))

/-- What is told about the level of what is logged, unless another option makes it void. -/
def logLevelTold (common : CommonOptions) : String :=
  if common.quiet || common.verbose || isLogLevel common.logLevel then ""
  else tell ("Invalid log level: " ++ common.logLevel ++ ". Using 'warn' instead.")

/-- The line with the category of a text. -/
def classLine (message : String) : String :=
  let category := Category.ofText message
  category.identifier ++ "\t" ++ category.findingClass.identifier ++ "\n"

/-- Where settings are looked for if no file is named. -/
def settingsPath : String := "./firehose.toml"

/-- The text in a file. -/
def textOf (contents : Except FileError ByteArray) : Except FileError String :=
  match contents with
  | .error error => .error error
  | .ok bytes =>
    match Text.ofUtf8? bytes with
    | some text => .ok text
    | none => .error .notText

/-- The settings in a file that has been read. -/
def settingsOf (path : String) (contents : Except FileError ByteArray) :
    Except RunError Settings :=
  match textOf contents with
  | .error error => .error (.settingsUnread path error)
  | .ok text => (Settings.ofText text).mapError .settings

/-- The settings: from the file that is named, or else from the usual place if there is a file, or
else the default settings. -/
def loadSettings {m : Type → Type} [Monad m] (files : FileAccess m) (named : Option String) :
    m (Except RunError Settings) := do
  match named with
  | some path => return settingsOf path (← files.read path)
  | none =>
    match ← files.read settingsPath with
    | .error error =>
      return if error.isAbsence then .ok .default else settingsOf settingsPath (.error error)
    | .ok contents => return settingsOf settingsPath (.ok contents)

/-- What is told about the settings. -/
def settingsTold (common : CommonOptions) (settings : Settings) : String :=
  if common.verbose then
    tell ("   Generator " ++ settings.generator.name ++ " v" ++ settings.generator.version)
  else ""

/-- What a report is made of and what is made of it, after arguments and settings. -/
structure ReportPlan where
  /-- Where the report comes from. -/
  metadata : Metadata
  /-- How events are recorded. -/
  recorder : RecorderSettings
  /-- Where the document is streamed to, if it is. -/
  output : Option String
  /-- How the final report is printed. -/
  format : Rendering

/-- Arguments count before settings. -/
def reportPlan (arguments : ReportRequest) (settings : Settings) : ReportPlan where
  metadata := { generator := settings.generator }
  recorder := { aggregateEvents := arguments.aggregate || settings.report.aggregateEvents }
  output := arguments.output.or settings.report.output
  format := arguments.format.getD settings.report.format

/-- Replays a log as planned. A document is streamed if there is a place for it. -/
def replay (plan : ReportPlan) (content source : String) : Except ReportError Replay :=
  Replay.run
    (Recorder.start plan.metadata plan.recorder (plan.output.map fun _ => Output.flawless))
    (Transcript.events content source)

/-- What is printed of a report. A document that is streamed as markup is not printed as well. -/
def printed (plan : ReportPlan) (analysis : Analysis) : String :=
  match plan.format with
  | .json => tell analysis.toJson.pretty
  | .xml => if plan.output.isNone then tell analysis.markup else ""

/-- What is told about a replay. -/
def replayTold (common : CommonOptions) (replay : Replay) : String :=
  if common.quiet then ""
  else tell ("   Reported " ++ replay.findings.repr ++ " finding(s) from " ++ replay.events.repr ++
    " event(s), " ++ replay.repeats.repr ++ " repeat(s) suppressed")

/-- Makes a report: the replay of the log, with the document written to its place. -/
def makeReport {m : Type → Type} [Monad m] (files : FileAccess m) (plan : ReportPlan)
    (log : String) : m (Except RunError Replay) := do
  match textOf (← files.read log) with
  | .error error => return .error (.file error)
  | .ok content =>
    match replay plan content log, plan.output with
    | .error error, _ => return .error (.report error)
    | .ok replay, none => return .ok replay
    | .ok replay, some path =>
      match ← files.write path replay.document with
      | .error error => return .error (.file error)
      | .ok () => return .ok replay

/-- The outcome of a command that failed. -/
def failure (told : String) (error : RunError) : Outcome :=
  { code := 1, stderr := told ++ tell ("error: " ++ error.message) }

/-- Runs the command that makes a report. `told` is what has been told before. -/
def runReport {m : Type → Type} [Monad m] (files : FileAccess m) (common : CommonOptions)
    (arguments : ReportRequest) (told : String) : m Outcome := do
  match ← loadSettings files common.config with
  | .error error => return failure told error
  | .ok settings =>
    let told := told ++ settingsTold common settings
    let plan := reportPlan arguments settings
    match ← makeReport files plan arguments.log with
    | .error error => return failure told error
    | .ok replay =>
      return { code := 0
               stdout := printed plan replay.analysis
               stderr := told ++ replayTold common replay }

/-- Runs a command. -/
def runInvocation {m : Type → Type} [Monad m] (files : FileAccess m) (invocation : Invocation) :
    m Outcome := do
  let told := logLevelTold invocation.common
  match invocation.command with
  | .classify messages =>
    return { code := 0, stdout := String.join (messages.map classLine), stderr := told }
  | .report arguments => runReport files invocation.common arguments told

/-- The outcome if there is no command to run. How arguments should have been given is not told. -/
def refused : Refusal → Outcome
  | .version => { code := 0, stdout := tell (programName ++ " " ++ programVersion) }
  | .usage => { code := 2 }

/-- Runs the program with arguments. -/
def run {m : Type → Type} [Monad m] (files : FileAccess m) (args : List String) : m Outcome := do
  match parse args with
  | .error refusal => return refused refusal
  | .ok invocation => runInvocation files invocation

end CommandLine

end DiagnosticReport
