/-!
# Access to files

What the program asks of the files around it: to read one and to write one, each as a whole. Any
monad will do that can answer; `FileAccess` holds the two operations, and `FileError` says in the
words of the system why one of them failed.
-/

namespace DiagnosticReport

/-- Why a file could not be read or written. -/
inductive FileError where
  | notFound
  | notDirectory
  | isDirectory
  | nameTooLong
  /-- A path cannot hold the character U+0000. -/
  | containsNul
  /-- The file holds bytes that are no text. -/
  | notText
  /-- Any other failure, in the words of the system. -/
  | other (words : String)
  deriving DecidableEq

/-- The wording of a failure. -/
def FileError.message : FileError → String
  | .notFound => "No such file or directory (os error 2)"
  | .notDirectory => "Not a directory (os error 20)"
  | .isDirectory => "Is a directory (os error 21)"
  | .nameTooLong => "File name too long (os error 36)"
  | .containsNul => "file name contained an unexpected NUL byte"
  | .notText => "stream did not contain valid UTF-8"
  | .other words => words

/-- Whether a failure to read says that there is no file of that name. -/
def FileError.isAbsence : FileError → Bool
  | .notFound | .notDirectory | .isDirectory => true
  | _ => false

/-- The operations on files. -/
structure FileAccess (m : Type → Type) where
  /-- The contents of a file. -/
  read : String → m (Except FileError ByteArray)
  /-- Replaces the contents of a file, which need not exist. -/
  write : String → ByteArray → m (Except FileError Unit)

end DiagnosticReport
