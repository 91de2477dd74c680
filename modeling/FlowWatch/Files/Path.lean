/-
Paths as text.

A path is split at its slashes into pieces. Empty pieces and single dots say nothing, except that
a dot at the very start of a relative path counts as a component. The functions here look at the
text only; what a path leads to is a matter of the file tree.
-/
set_option autoImplicit false

namespace FlowWatch

/-- A path as text. -/
abbrev Path := String

namespace Path

/-- The pieces between slashes. -/
def splitSlash : List Char → List (List Char)
  | [] => [[]]
  | c :: cs =>
    match splitSlash cs with
    | [] => [[c]]
    | piece :: pieces => if c == '/' then [] :: piece :: pieces else (c :: piece) :: pieces

/-- The pieces of a path. -/
def pieces (p : Path) : List String := (splitSlash p.toList).map String.ofList

/-- Whether the path starts at the root. -/
def isAbsolute (p : Path) : Bool := p.toList.head? == some '/'

/-- Pieces that say nothing. -/
def isVoid (piece : String) : Bool := piece == "" || piece == "."

/-- The pieces of a relative path, or those of an absolute one after its first slash, without the
void ones at the end. A dot at the very start of a relative path stays. -/
def body (p : Path) : List String :=
  let trimmed (ps : List String) : List String := (ps.reverse.dropWhile isVoid).reverse
  match pieces p with
  | [] => []
  | first :: rest =>
    if isAbsolute p then trimmed rest
    else if first == "." then first :: trimmed rest
    else trimmed (first :: rest)

/-- The path of a body. -/
def ofBody (isAbsolute : Bool) (ps : List String) : Path :=
  (if isAbsolute then "/" else "") ++ "/".intercalate ps

/-- The path without its last component; the root and the empty path have none. -/
def parent? (p : Path) : Option Path :=
  match body p with
  | [] => none
  | ps =>
    let front := ps.dropLast
    let front :=
      if isAbsolute p then (front.reverse.dropWhile isVoid).reverse
      else match front with
        | "." :: rest => "." :: (rest.reverse.dropWhile isVoid).reverse
        | front => (front.reverse.dropWhile isVoid).reverse
    some (ofBody (isAbsolute p) front)

/-- The last component, unless it is a dot or two. -/
def fileName? (p : Path) : Option String :=
  match (body p).getLast? with
  | some name => if name == "." || name == ".." then none else some name
  | none => none

/-- A file name cut at its last point; a point at the start does not count. -/
def splitName (name : String) : String × Option String :=
  let cs := name.toList
  let after := (cs.reverse.takeWhile (· != '.')).reverse
  let before := cs.take (cs.length - after.length - 1)
  if before.isEmpty then (name, none) else (String.ofList before, some (String.ofList after))

/-- The file name without its extension. -/
def stem? (p : Path) : Option String := (fileName? p).map fun n => (splitName n).1

/-- The extension of the file name. -/
def extension? (p : Path) : Option String := (fileName? p).bind fun n => (splitName n).2

/-- The path of an entry of a directory. -/
def join (dir : Path) (entry : String) : Path :=
  if isAbsolute entry || dir == "" then entry
  else if dir.toList.getLast? == some '/' then dir ++ entry
  else dir ++ "/" ++ entry

end Path

end FlowWatch
