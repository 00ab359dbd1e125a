/-!
# Storage

What the compiler needs of a file system: to read a file as text and to write one. The monad is
left open, so that the same compiler runs on the real file system and on a `Directory` in memory.
-/

namespace BlockScript

/-- Why a file cannot be read or written. -/
inductive StorageFault
  | missing
  | isDirectory
  | notDirectory
  | nameTooLong
  /-- The path has a null character, which no name of a file can hold. -/
  | nullInName
  /-- The bytes of the file are no UTF-8. -/
  | notText
  | other (message : String)
  deriving DecidableEq, Repr, Inhabited

/-- The fault in words; most of them are those of the operating system. -/
def StorageFault.message : StorageFault → String
  | missing => "No such file or directory (os error 2)"
  | isDirectory => "Is a directory (os error 21)"
  | notDirectory => "Not a directory (os error 20)"
  | nameTooLong => "File name too long (os error 36)"
  | nullInName => "file name contained an unexpected NUL byte"
  | notText => "stream did not contain valid UTF-8"
  | other message => message

/-- Access to files by their paths. -/
structure Storage (m : Type → Type) where
  /-- The text of a file. -/
  read : String → m (Except StorageFault String)
  /-- Writes a text to a file, in place of what it held. -/
  write : String → String → m (Except StorageFault Unit)

end BlockScript
