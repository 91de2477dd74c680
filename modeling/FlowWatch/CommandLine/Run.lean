/-
The program: from arguments to what it prints and its exit code.
-/
import FlowWatch.CommandLine.Analyse
import FlowWatch.CommandLine.Help
import FlowWatch.Files.Tree

set_option autoImplicit false

namespace FlowWatch.CommandLine

/-- What a run ends with. -/
structure Outcome where
  code : Nat
  printed : Printed
  deriving DecidableEq, Repr

namespace Outcome

/-- A run that did what was asked. -/
def success (printed : Printed) : Outcome := ⟨0, printed⟩

/-- A run that ended with an error text. -/
def failure (stderr : String) : Outcome := ⟨2, { stderr := stderr }⟩

/-- A run that ended before there was anything to do. -/
def ofHalt : Halt → Outcome
  | .help level => success { stdout := helpText level }
  | .helpOnHelp level => success { stdout := helpOnHelpText level }
  | .version => success { stdout := versionText }
  | .idle level => failure (helpText level)
  | .misuse level e => failure (e.text level)

end Outcome

/-- The text of a failure. -/
def Failure.text (f : Failure) : String :=
  "error: " ++ f.message ++ "\n" ++
    match f.hint with
    | some hint => "hint: " ++ hint ++ "\n"
    | none => ""

/-- Runs the program. -/
def run {m : Type → Type} [Monad m] (fs : FileSystem m) (args : List String) : m Outcome := do
  match Options.read args with
  | .error halt => return .ofHalt halt
  | .ok options =>
    match ← (analyse fs options).run with
    | .ok printed => return .success printed
    | .error f => return .failure f.text

/-- Runs the program on a tree of files. -/
def runOn (tree : FileTree) (args : List String) : Outcome × FileTree :=
  (run FileTree.system args) tree

end FlowWatch.CommandLine
