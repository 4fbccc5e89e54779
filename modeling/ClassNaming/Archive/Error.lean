import ClassNaming.IoError

/-!
# Why an archive is refused

## Main Definitions

* `InvalidArchive`, `UnsupportedArchive` - what is wrong with an archive, or beyond this reader
* `ArchiveError` - either of them, or a failure of the data underneath
* `ArchiveError.message` - the wording of all of them
-/

namespace ClassNaming

/-- What is wrong with an archive. -/
inductive InvalidArchive where
  /-- There are fewer bytes than an end record takes. -/
  | tooShort
  /-- There is no end record. -/
  | noEndRecord
  /-- The central directory would start before the file. -/
  | badDirectoryBounds
  /-- There is no room for the 64-bit end record that is announced. -/
  | noRoomForLargeEndRecord
  /-- The 64-bit end record that is announced is not there. -/
  | noLargeEndRecord
  /-- An entry of the central directory starts with another signature. -/
  | badCentralHeader
  /-- The header before a content starts with another signature. -/
  | badLocalHeader
  /-- The place of a content is beyond all 64-bit offsets. -/
  | headerTooLarge
  /-- An encrypted method without the field that describes it. -/
  | missingEncryptionField
  /-- The encryption field names another vendor. -/
  | badEncryptionVendor
  /-- The encryption field names an unknown version. -/
  | badEncryptionVersion
  /-- The encryption field names an unknown strength. -/
  | badEncryptionStrength
  deriving Repr, DecidableEq

/-- What is beyond this reader. -/
inductive UnsupportedArchive where
  /-- The archive is spread over several disks. -/
  | multipleDisks
  /-- The encryption field has another size. -/
  | encryptionFieldSize
  /-- The content is encrypted. -/
  | encrypted
  /-- The content is compressed by another method. -/
  | method
  deriving Repr, DecidableEq

/-- Why an archive, or an entry of one, could not be read. -/
inductive ArchiveError where
  | invalid (what : InvalidArchive)
  | unsupported (what : UnsupportedArchive)
  | io (e : IoError)
  deriving Repr, DecidableEq

/-- The wording of what is wrong with an archive. -/
def InvalidArchive.message : InvalidArchive → String
  | tooShort => "Invalid zip header"
  | noEndRecord => "Could not find central directory end"
  | badDirectoryBounds => "Invalid central directory size or offset"
  | noRoomForLargeEndRecord => "File cannot contain ZIP64 central directory end"
  | noLargeEndRecord => "Could not find ZIP64 central directory end"
  | badCentralHeader => "Invalid Central Directory header"
  | badLocalHeader => "Invalid local file header"
  | headerTooLarge => "Archive header is too large"
  | missingEncryptionField => "AES encryption without AES extra data field"
  | badEncryptionVendor => "Invalid AES vendor"
  | badEncryptionVersion => "Invalid AES vendor version"
  | badEncryptionStrength => "Invalid AES encryption strength"

/-- The wording of what is beyond this reader. -/
def UnsupportedArchive.message : UnsupportedArchive → String
  | multipleDisks => "Support for multi-disk files is not implemented"
  | encryptionFieldSize => "AES extra data field has an unsupported length"
  | encrypted => "Password required to decrypt file"
  | method => "Compression method not supported"

/-- The wording of an archive error. -/
def ArchiveError.message : ArchiveError → String
  | invalid what => "invalid Zip archive: " ++ what.message
  | unsupported what => "unsupported Zip archive: " ++ what.message
  | io e => e.message

end ClassNaming
