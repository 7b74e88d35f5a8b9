/- # File faults — why the system refuses a file or a program

The faults are those of a POSIX system, with the numbers and the wording that
such a system gives them; three more concern the text of a path, the words a
program is started with, and the text of a file.
-/

namespace ProductLine

/-- Why an operation on files or programs failed. -/
inductive FileFault where
  | notPermitted
  | notFound
  | noSuchDevice
  | tooManyArguments
  | notRunnable
  | badDescriptor
  | permissionDenied
  | busy
  | alreadyExists
  | notADirectory
  | isADirectory
  | invalidArgument
  | noSpace
  | nameTooLong
  | notEmpty
  | tooManyLevels
  | zeroByteInPath
  | zeroByteInWords
  | notUtf8
  | other (number : Nat)
deriving DecidableEq

namespace FileFault

/-- The faults that have a number, with that number and a system's wording. -/
def numbered : List (FileFault × Nat × String) :=
  [(notPermitted, 1, "Operation not permitted"), (notFound, 2, "No such file or directory"),
    (noSuchDevice, 6, "No such device or address"),
    (tooManyArguments, 7, "Argument list too long"), (notRunnable, 8, "Exec format error"),
    (badDescriptor, 9, "Bad file descriptor"),
    (permissionDenied, 13, "Permission denied"), (busy, 16, "Device or resource busy"),
    (alreadyExists, 17, "File exists"), (notADirectory, 20, "Not a directory"),
    (isADirectory, 21, "Is a directory"), (invalidArgument, 22, "Invalid argument"),
    (noSpace, 28, "No space left on device"), (nameTooLong, 36, "File name too long"),
    (notEmpty, 39, "Directory not empty"),
    (tooManyLevels, 40, "Too many levels of symbolic links")]

def number? : FileFault → Option Nat
  | other n => some n
  | fault => (numbered.lookup fault).map Prod.fst

def reason : FileFault → String
  | zeroByteInPath => "file name contained an unexpected NUL byte"
  | zeroByteInWords => "nul byte found in provided data"
  | notUtf8 => "stream did not contain valid UTF-8"
  | fault => ((numbered.lookup fault).map Prod.snd).getD "System error"

def message (fault : FileFault) : String :=
  match fault.number? with
  | some n => fault.reason ++ " (os error " ++ toString n ++ ")"
  | none => fault.reason

def ofNumber (n : Nat) : FileFault :=
  match numbered.find? (·.2.1 == n) with
  | some (fault, _) => fault
  | none => other n

end FileFault

end ProductLine
