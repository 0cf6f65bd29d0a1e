/-! # Why a file cannot be used -/

namespace ProofSize.Files

/-- Why the file system refuses a request, or why what it gives cannot be used. -/
inductive Fault where
  | noEntry
  | notDirectory
  | isDirectory
  | alreadyExists
  | tooManyLinks
  | nameTooLong
  | permissionDenied
  /-- There is a null character in the path. -/
  | nullInPath
  /-- The bytes of the file are not UTF-8 text. -/
  | notText
  /-- Any other refusal, with its number. -/
  | other (code : Nat)
  deriving DecidableEq

/-- The fault that an operating system reports by a number. -/
def Fault.ofCode : Nat → Fault
  | 2 => noEntry
  | 13 => permissionDenied
  | 17 => alreadyExists
  | 20 => notDirectory
  | 21 => isDirectory
  | 36 => nameTooLong
  | 40 => tooManyLinks
  | code => other code

def Fault.message : Fault → String
  | noEntry => "No such file or directory (os error 2)"
  | notDirectory => "Not a directory (os error 20)"
  | isDirectory => "Is a directory (os error 21)"
  | alreadyExists => "File exists (os error 17)"
  | tooManyLinks => "Too many levels of symbolic links (os error 40)"
  | nameTooLong => "File name too long (os error 36)"
  | permissionDenied => "Permission denied (os error 13)"
  | nullInPath => "file name contained an unexpected NUL byte"
  | notText => "stream did not contain valid UTF-8"
  | other code => s!"unknown error (os error {code})"

end ProofSize.Files
