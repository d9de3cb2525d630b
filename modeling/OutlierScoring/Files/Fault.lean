/-!
# What goes wrong with files

The causes for which an operation on a file or a folder fails, and what a message says about each.
-/

namespace OutlierScoring.Files

/-- Why an operation on a file or a folder failed. -/
inductive Fault where
  /-- There is nothing at a path, or a folder on the way to it is missing. -/
  | notFound
  /-- Something that is not a folder stands where a folder is needed. -/
  | notFolder
  /-- A folder stands where a file is needed. -/
  | isFolder
  /-- Something that is not a folder stands where a folder is to be made. -/
  | occupied
  /-- A name is longer than names can be. -/
  | nameTooLong
  /-- A name holds the character that ends names. -/
  | nulInName
  /-- A file that is to be read as text is not UTF-8. -/
  | notText
  /-- The device refused the operation. -/
  | device
deriving DecidableEq, Repr

/-- What a message says about a fault. -/
def Fault.message : Fault → String
  | notFound => "No such file or directory (os error 2)"
  | notFolder => "Not a directory (os error 20)"
  | isFolder => "Is a directory (os error 21)"
  | occupied => "File exists (os error 17)"
  | nameTooLong => "File name too long (os error 36)"
  | nulInName => "file name contained an unexpected NUL byte"
  | notText => "stream did not contain valid UTF-8"
  | device => "Input/output error (os error 5)"

end OutlierScoring.Files
