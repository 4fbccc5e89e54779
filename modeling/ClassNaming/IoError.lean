/-!
# Failures of input and output

The failures that the operating system reports for files, and those of a stream whose content is
not what it should be.

## Main Definitions

* `IoError` - the failures
* `IoError.message` - the wording of all of them
-/

namespace ClassNaming

/-- Why reading or writing failed. -/
inductive IoError where
  /-- A part of the path does not exist. -/
  | notFound
  /-- Something exists where a new file, directory or link was to be made. -/
  | alreadyExists
  /-- A part of the path that leads on is no directory. -/
  | notDirectory
  /-- A directory stands where a file is needed. -/
  | isDirectory
  /-- The request makes no sense for this path. -/
  | invalidArgument
  /-- A directory that was to vanish has entries. -/
  | directoryNotEmpty
  /-- A name in the path is too long for any file. -/
  | nameTooLong
  /-- A path holds a NUL. -/
  | nulInPath
  /-- Links lead on and on. -/
  | tooManyLinks
  /-- The path is in use, like the root or a part of a moved path. -/
  | busy
  /-- A text file is no UTF-8. -/
  | invalidText
  /-- The data ends within a field of fixed size. -/
  | shortData
  /-- The checksum of a content is not the declared one. -/
  | badChecksum
  /-- A compressed content is malformed. -/
  | corruptDeflate
  /-- A compressed content ends too early. -/
  | incompleteDeflate
  deriving Repr, DecidableEq

/-- The wording of a system failure with its number. -/
def IoError.numbered (text : String) (number : Nat) : String :=
  text ++ " (os error " ++ toString number ++ ")"

/-- The wording of a failure. -/
def IoError.message : IoError → String
  | notFound => numbered "No such file or directory" 2
  | alreadyExists => numbered "File exists" 17
  | notDirectory => numbered "Not a directory" 20
  | isDirectory => numbered "Is a directory" 21
  | invalidArgument => numbered "Invalid argument" 22
  | directoryNotEmpty => numbered "Directory not empty" 39
  | nameTooLong => numbered "File name too long" 36
  | tooManyLinks => numbered "Too many levels of symbolic links" 40
  | busy => numbered "Device or resource busy" 16
  | nulInPath => "file name contained an unexpected NUL byte"
  | invalidText => "stream did not contain valid UTF-8"
  | shortData => "failed to fill whole buffer"
  | badChecksum => "Invalid checksum"
  | corruptDeflate => "corrupt deflate stream"
  | incompleteDeflate => "incomplete deflate stream"

end ClassNaming
