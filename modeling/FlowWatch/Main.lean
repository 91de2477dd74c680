/-
The program on the machine's files.
-/
import FlowWatch.CommandLine.Run

set_option autoImplicit false

namespace FlowWatch.Machine

/-- The refusal of an operation. -/
def refusal : IO.Error → FileError
  | .noFileOrDirectory .. => .notFound
  | .alreadyExists .. => .exists
  | e => .other (toString e)

/-- Tries an operation. -/
def attempt {α : Type} (action : IO α) : IO (Except FileError α) := do
  match ← action.toBaseIO with
  | .ok a => return .ok a
  | .error e => return .error (refusal e)

/-- What a path leads to. -/
def kind? (p : Path) : IO (Option FileKind) := do
  match ← attempt (do return (← (← IO.FS.realPath p).metadata).type) with
  | .ok .file => return some .file
  | .ok .dir => return some .directory
  | .ok _ => return some .special
  | .error _ => return none

/-- The names in a directory. -/
def entries (p : Path) : IO (List String) := do
  match ← attempt (do (← IO.FS.realPath p).readDir) with
  | .ok found => return found.toList.map (·.fileName)
  | .error _ => return []

/-- The machine's files. -/
def files : FileSystem IO where
  canonical p := attempt (do return (← IO.FS.realPath p).toString)
  kind? := kind?
  entries := entries
  read p := attempt (do return (← IO.FS.readBinFile p).toList)
  write p bytes := attempt (IO.FS.writeBinFile p (ByteArray.mk bytes.toArray))
  makeDirectories p := attempt (IO.FS.createDirAll p)

end FlowWatch.Machine

/-- Runs the program with the arguments it was called with. -/
def main (args : List String) : IO UInt32 := do
  let outcome ← FlowWatch.CommandLine.run FlowWatch.Machine.files args
  IO.print outcome.printed.stdout
  IO.eprint outcome.printed.stderr
  return UInt32.ofNat outcome.code
