/-!
# What an operating system refuses

Each cause with the wording that the system gives it.
-/
namespace SessionHost

/-- Why the system refuses an operation. -/
inductive IoError where
  | notFound
  | argumentListTooLong
  | execFormat
  | badDescriptor
  | permissionDenied
  | alreadyExists
  | notDirectory
  | isDirectory
  | nameTooLong
  | directoryNotEmpty
  | addressInUse
  | addressNotAvailable
  | notText
  | nulByte
  deriving DecidableEq, Repr

namespace IoError

/-- The system's words for an error, without its number. -/
def words : IoError → String
  | notFound => "No such file or directory"
  | argumentListTooLong => "Argument list too long"
  | execFormat => "Exec format error"
  | badDescriptor => "Bad file descriptor"
  | permissionDenied => "Permission denied"
  | alreadyExists => "File exists"
  | notDirectory => "Not a directory"
  | isDirectory => "Is a directory"
  | nameTooLong => "File name too long"
  | directoryNotEmpty => "Directory not empty"
  | addressInUse => "Address already in use"
  | addressNotAvailable => "Cannot assign requested address"
  | notText => "stream did not contain valid UTF-8"
  | nulByte => "nul byte found in provided data"

/-- The number of an error, for those that the system itself reports. -/
def number? : IoError → Option Nat
  | notFound => some 2
  | argumentListTooLong => some 7
  | execFormat => some 8
  | badDescriptor => some 9
  | permissionDenied => some 13
  | alreadyExists => some 17
  | notDirectory => some 20
  | isDirectory => some 21
  | nameTooLong => some 36
  | directoryNotEmpty => some 39
  | addressInUse => some 98
  | addressNotAvailable => some 99
  | notText | nulByte => none

def message (e : IoError) : String :=
  match e.number? with
  | some n => s!"{e.words} (os error {n})"
  | none => e.words

end IoError

end SessionHost
