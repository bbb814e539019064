/-!
# File errors

Why a file cannot be read or written, in the words of the operating system.
-/

namespace PrintPath.Files

/-- Why a file cannot be had. -/
inductive FileError where
  | notFound
  | notADirectory
  | isADirectory
  | nameTooLong
  | zeroInName
  | notText
  /-- Any other reason, in the system's words. -/
  | other (reason : String)
deriving DecidableEq, Repr

def FileError.message : FileError → String
  | .notFound => "No such file or directory (os error 2)"
  | .notADirectory => "Not a directory (os error 20)"
  | .isADirectory => "Is a directory (os error 21)"
  | .nameTooLong => "File name too long (os error 36)"
  | .zeroInName => "file name contained an unexpected NUL byte"
  | .notText => "stream did not contain valid UTF-8"
  | .other reason => reason

/-- How far reading a file got. A directory can be opened but not read. -/
inductive ReadError where
  | atOpen (cause : FileError)
  | atRead (cause : FileError)
deriving DecidableEq, Repr

def ReadError.cause : ReadError → FileError
  | .atOpen e => e
  | .atRead e => e

end PrintPath.Files
