/-
The paths a wildcard pattern stands for.

A pattern is followed piece by piece from the directory it starts in. A piece without wildcards is
looked up; one with wildcards is tried on the entries of the directory, in the order of their
names. The directories a double star stands for are walked from the top, each before what lies in
it.
-/
import FlowWatch.Files.System
import FlowWatch.Files.Wildcard

set_option autoImplicit false

namespace FlowWatch

open Wildcard

/-- A pattern: whether it starts at the root, its pieces, and whether it asks for directories. -/
structure Glob where
  fromRoot : Bool
  pieces : List Piece
  onlyDirectories : Bool
  deriving DecidableEq, Repr

namespace Glob

/-- Reads a pattern; a slash at its end only says that it asks for directories. -/
def ofString? (s : String) : Option Glob := do
  let texts := Path.pieces (if Path.isAbsolute s then String.ofList (s.toList.drop 1) else s)
  let isSlashed := texts.getLast? == some ""
  let pieces ← (if isSlashed then texts.dropLast else texts).mapM piece?
  some ⟨Path.isAbsolute s, pieces, isSlashed⟩

/-- Whether a path is a spelling of the current directory with nothing but dots. -/
def isHere (dir : Path) : Bool := !dir.isAbsolute && dir.body == ["."]

/-- The path of an entry; entries of the current directory go by their name alone. -/
def entryPath (dir : Path) (name : String) : Path := if isHere dir then name else Path.join dir name

/-- The names every directory has without listing them. -/
def isDots (name : String) : Bool := name == "." || name == ".."

/-- Such names are found only by a pattern that starts with a point. -/
def findsDots : Piece → String → Bool
  | .name (.char '.' :: tokens), name => fits (.char '.' :: tokens) name.toList
  | _, _ => false

/-- How deep directories may lie in each other: no path is so long that it could name a deeper
one. -/
def maxDepth : Nat := 4096

section

variable {m : Type → Type} [Monad m] (fs : FileSystem m)

/-- Whether a path leads to a directory. -/
def isDirectory (p : Path) : m Bool := return (← fs.kind? p) == some .directory

/-- Goes on from a path that fits all pieces so far. -/
def arrive (onlyDirectories : Bool) (go : List Piece → Path → m (List Path)) (rest : List Piece)
    (p : Path) : m (List Path) := do
  match rest with
  | [] => if onlyDirectories && !(← isDirectory fs p) then return [] else return [p]
  | rest => go rest p

/-- Tries an entry on a piece that is no double star. -/
def tryName (onlyDirectories : Bool) (go : List Piece → Path → m (List Path)) (tokens : List Token)
    (rest : List Piece) (name : String) (p : Path) : m (List Path) :=
  if fits tokens name.toList then arrive fs onlyDirectories go rest p else return []

/-- Tries an entry on the next piece. Behind a double star the entry may be the end of the run of
directories, or, if it is a directory itself, a part of it. -/
def visit (onlyDirectories : Bool) (go : List Piece → Path → m (List Path)) (piece : Piece)
    (rest : List Piece) (name : String) (p : Path) : m (List Path) := do
  match piece with
  | .name tokens => tryName fs onlyDirectories go tokens rest name p
  | .directories =>
    -- Double stars in a row stand for no more than one.
    let rest := rest.dropWhile (· == .directories)
    let inside ← isDirectory fs p
    let own ← match rest with
      | .name tokens :: rest => tryName fs onlyDirectories go tokens rest name p
      | _ => pure (if inside then [p] else [])
    let deeper ← if inside then go (.directories :: rest) p else pure []
    return own ++ deeper

/-- Follows the pieces from a directory. The fuel bounds the number of pieces and directories
passed. -/
def follow (onlyDirectories : Bool) : Nat → List Piece → Path → m (List Path)
  | 0, _, _ => return []
  | _ + 1, [], _ => return []
  | fuel + 1, piece :: rest, dir => do
    let go := follow onlyDirectories fuel
    let literal := match piece with
      | .name tokens => literal? tokens
      | .directories => none
    match literal with
    | some name =>
      let name := String.ofList name
      let next := entryPath dir name
      let isThere ← if isDots name then isDirectory fs dir else pure (← fs.kind? next).isSome
      if isThere then arrive fs onlyDirectories go rest next else return []
    | none =>
      if ← isDirectory fs dir then
        let dots ← (["..", "."].filter (findsDots piece)).mapM fun name =>
          arrive fs onlyDirectories go rest (Path.join dir name)
        let names := (← fs.entries dir).mergeSort fun a b => decide (a ≤ b)
        let found ← names.mapM fun name =>
          visit fs onlyDirectories go piece rest name (entryPath dir name)
        return dots.flatten ++ found.flatten
      else return []

/-- The paths a pattern stands for. -/
def expand (g : Glob) : m (List Path) :=
  follow fs g.onlyDirectories (maxDepth + g.pieces.length) g.pieces
    (if g.fromRoot then "/" else ".")

end

end Glob

end FlowWatch
