import DiagnosticReport.CommandLine.Run

/-!
# The program

The command line on the files of the system. Everything that is decided is decided in
`CommandLine.run`; what is left to do here is to read, to write and to print.
-/

namespace DiagnosticReport

/-- The failure that the system reports. -/
def FileError.ofSystem (e : IO.Error) : FileError :=
  match e with
  | .noFileOrDirectory .. => .notFound
  | .inappropriateType _ 20 _ => .notDirectory
  | .inappropriateType _ 21 _ => .isDirectory
  | .invalidArgument _ 36 _ => .nameTooLong
  | .permissionDenied _ code details =>
    .other (details ++ " (os error " ++ code.toNat.repr ++ ")")
  | e => .other e.toString

/-- The result of an operation of the system. -/
def FileAccess.attempt {α : Type} (act : IO α) : IO (Except FileError α) := do
  try
    return .ok (← act)
  catch e =>
    return .error (.ofSystem e)

/-- The files of the system. -/
def FileAccess.system : FileAccess IO where
  read path := FileAccess.attempt (IO.FS.readBinFile path)
  write path contents := FileAccess.attempt (IO.FS.writeBinFile path contents)

end DiagnosticReport

/-- Runs the program: prints what is to be printed and gives the exit code. -/
def main (args : List String) : IO UInt32 := do
  let outcome ← DiagnosticReport.CommandLine.run DiagnosticReport.FileAccess.system args
  (← IO.getStderr).putStr outcome.stderr
  (← IO.getStdout).putStr outcome.stdout
  return outcome.code.toUInt32
