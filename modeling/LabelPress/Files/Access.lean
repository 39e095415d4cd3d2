/-!
# Access to files

Why a file cannot be used, and how that is worded.
-/

namespace LabelPress.Files

inductive AccessError where
  | notFound
  | permissionDenied
  /-- The file or directory is in use and stays where it is. -/
  | busy
  | notDirectory
  | isDirectory
  | notText
  | nameTooLong
  | nulInName
  deriving DecidableEq, Repr

def AccessError.message : AccessError → String
  | notFound => "No such file or directory (os error 2)"
  | permissionDenied => "Permission denied (os error 13)"
  | busy => "Device or resource busy (os error 16)"
  | notDirectory => "Not a directory (os error 20)"
  | isDirectory => "Is a directory (os error 21)"
  | notText => "stream did not contain valid UTF-8"
  | nameTooLong => "File name too long (os error 36)"
  | nulInName => "file name contained an unexpected NUL byte"

end LabelPress.Files
