/-
Wildcard patterns for the names in a path.

A question mark stands for one character, a star for any run of them, and brackets for one
character of a set, or, behind an exclamation mark, of its complement. A double star stands for
any run of directories and has to be a piece of its own.
-/
import FlowWatch.Files.Path

set_option autoImplicit false

namespace FlowWatch.Wildcard

/-- One element of a pattern; a set lists closed ranges. -/
inductive Token where
  | char (c : Char)
  | anyChar
  | anyRun
  | oneOf (ranges : List (Char × Char))
  | noneOf (ranges : List (Char × Char))
  deriving DecidableEq, Repr

/-- The pattern of one piece of a path. -/
inductive Piece where
  /-- Any run of directories. -/
  | directories
  | name (tokens : List Token)
  deriving DecidableEq, Repr

/-! ## Reading -/

/-- The ranges a set is written with. -/
def ranges : List Char → List (Char × Char)
  | a :: '-' :: b :: rest => (a, b) :: ranges rest
  | a :: rest => (a, a) :: ranges rest
  | [] => []

/-- The members of a set, of which the first may be a bracket, and what follows the closing
bracket. -/
def members? : List Char → Option (List Char × List Char)
  | [] => none
  | first :: rest =>
    let inner := rest.takeWhile (· != ']')
    match rest.drop inner.length with
    | [] => none
    | _ :: rest => some (first :: inner, rest)

/-- Reads a set behind its opening bracket. -/
def set? : List Char → Option (Token × List Char)
  | '!' :: cs => (members? cs).map fun m => (.noneOf (ranges m.1), m.2)
  | cs => (members? cs).map fun m => (.oneOf (ranges m.1), m.2)

/-- Reads elements; none for a set that is not closed and for stars in a row. The fuel bounds
their number. -/
def tokensFrom : Nat → List Char → Option (List Token)
  | 0, _ => none
  | _ + 1, [] => some []
  | _ + 1, '*' :: '*' :: _ => none
  | fuel + 1, '*' :: cs => (tokensFrom fuel cs).map (.anyRun :: ·)
  | fuel + 1, '?' :: cs => (tokensFrom fuel cs).map (.anyChar :: ·)
  | fuel + 1, '[' :: cs =>
    match set? cs with
    | some (token, rest) => (tokensFrom fuel rest).map (token :: ·)
    | none => none
  | fuel + 1, c :: cs => (tokensFrom fuel cs).map (.char c :: ·)

/-- Reads the pattern of one piece. -/
def piece? (s : String) : Option Piece :=
  if s == "**" then some .directories
  else (tokensFrom (s.length + 1) s.toList).map .name

/-- Whether a text has any of the characters that make it a pattern. -/
def isPattern (s : String) : Bool := s.toList.any fun c => c == '*' || c == '?' || c == '['

/-! ## Matching -/

/-- Whether a character lies in one of the ranges. -/
def within (ranges : List (Char × Char)) (c : Char) : Bool := ranges.any fun r => r.1 ≤ c && c ≤ r.2

/-- Whether an element other than a run fits a character. -/
def Token.fits (c : Char) : Token → Bool
  | .char d => c == d
  | .anyChar => true
  | .anyRun => false
  | .oneOf ranges => within ranges c
  | .noneOf ranges => !within ranges c

/-- The ends of a name, from the whole name to the empty one. -/
def ends : List Char → List (List Char)
  | [] => [[]]
  | c :: cs => (c :: cs) :: ends cs

/-- What may be left of a name behind one more element, given what may be left of it in front. The
ends of the name that may be left are listed from the longest on, so those behind a run are all the
ends of the first. -/
def leftBehind (left : List (List Char)) : Token → List (List Char)
  | .anyRun =>
    match left with
    | [] => []
    | longest :: _ => ends longest
  | token =>
    left.filterMap fun
      | c :: cs => if token.fits c then some cs else none
      | [] => none

/-- Whether a name fits the elements: whether nothing may be left of it behind them. -/
def fits (tokens : List Token) (name : List Char) : Bool :=
  (tokens.foldl leftBehind [name]).any List.isEmpty

/-- The text of elements that stand for themselves. -/
def literal? : List Token → Option (List Char)
  | [] => some []
  | .char c :: tokens => (literal? tokens).map (c :: ·)
  | _ => none

end FlowWatch.Wildcard
