/-!
# Errors of the operating system

What can go wrong with files and sockets, with the wording and number the system gives it.
-/

namespace Gatehouse

/-- An error of a file or socket operation. -/
inductive SystemError
  | notFound
  | alreadyExists
  | notADirectory
  | isADirectory
  | invalidArgument
  | nameTooLong
  | addressInUse
  /-- A path that no system call can be given. -/
  | nulInPath
  /-- A file that should hold text does not. -/
  | invalidText
  /-- An error that is known by its text only. -/
  | other (text : String)
deriving DecidableEq, Repr

/-- The wording of an error. -/
def SystemError.message : SystemError → String
  | notFound => "No such file or directory (os error 2)"
  | alreadyExists => "File exists (os error 17)"
  | notADirectory => "Not a directory (os error 20)"
  | isADirectory => "Is a directory (os error 21)"
  | invalidArgument => "Invalid argument (os error 22)"
  | nameTooLong => "File name too long (os error 36)"
  | addressInUse => "Address already in use (os error 98)"
  | nulInPath => "file name contained an unexpected NUL byte"
  | invalidText => "stream did not contain valid UTF-8"
  | other text => text

end Gatehouse
