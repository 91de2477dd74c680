/-
What a command needs of a file system.

A command is written against these operations, so that it runs on the machine's files as well as
on a tree held in memory.
-/
import FlowWatch.Files.Path

set_option autoImplicit false

namespace FlowWatch

/-- What a path may lead to. -/
inductive FileKind where
  | file
  | directory
  /-- A device or the like. -/
  | special
  deriving DecidableEq, Repr

/-- Why the system refuses an operation. -/
inductive FileError where
  | notFound
  | exists
  | notDirectory
  | isDirectory
  | nameTooLong
  | noSpace
  | other (reason : String)
  deriving DecidableEq, Repr

namespace FileError

/-- The refusal in words. -/
def message : FileError → String
  | .notFound => "No such file or directory (os error 2)"
  | .exists => "File exists (os error 17)"
  | .notDirectory => "Not a directory (os error 20)"
  | .isDirectory => "Is a directory (os error 21)"
  | .nameTooLong => "File name too long (os error 36)"
  | .noSpace => "No space left on device (os error 28)"
  | .other reason => reason

end FileError

/-- The operations of a file system. -/
structure FileSystem (m : Type → Type) where
  /-- The one path from the root, without dots, to where a path leads. -/
  canonical : Path → m (Except FileError Path)
  /-- What a path leads to, if to anything. -/
  kind? : Path → m (Option FileKind)
  /-- The names in a directory. -/
  entries : Path → m (List String)
  /-- The bytes of a file. -/
  read : Path → m (Except FileError (List UInt8))
  /-- Replaces a file, or makes a new one. -/
  write : Path → List UInt8 → m (Except FileError Unit)
  /-- Makes a directory and those above it that are missing. -/
  makeDirectories : Path → m (Except FileError Unit)

end FlowWatch
