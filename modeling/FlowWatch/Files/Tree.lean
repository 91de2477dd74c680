/-
A tree of files and directories, and what the system does with paths into it.

There are no links, so each place has exactly one list of names that leads to it from the root.
Paths are walked piece by piece: every piece but the last has to be a directory that exists, two
dots go up, and a slash at the end asks for a directory. Names have up to 255 bytes, and paths up
to 4095; a longer name is refused only in a directory that exists.

Beside the tree stands one device, which can be opened for writing and has no room for a byte.
-/
import FlowWatch.Files.System

set_option autoImplicit false

namespace FlowWatch

/-- A file with its bytes, or a directory with its entries. -/
inductive Node where
  | file (bytes : List UInt8)
  | directory (entries : List (String × Node))

namespace Node

/-- What the node is. -/
def kind : Node → FileKind
  | .file _ => .file
  | .directory _ => .directory

/-- The entry of a name. -/
def child? (entries : List (String × Node)) (name : String) : Option Node :=
  (entries.find? (·.1 == name)).map (·.2)

/-- The node a list of names leads to. -/
def get? (n : Node) : List String → Option Node
  | [] => some n
  | name :: names =>
    match n with
    | .file _ => none
    | .directory entries =>
      match child? entries name with
      | some child => child.get? names
      | none => none

/-- The entries with one of them replaced or added. -/
def setEntry (entries : List (String × Node)) (name : String) (child : Node) :
    List (String × Node) :=
  if entries.any (·.1 == name) then
    entries.map fun e => if e.1 == name then (name, child) else e
  else entries ++ [(name, child)]

/-- Puts a node at a place, making the directories on the way. Nothing is put below a file. -/
def put (n : Node) (value : Node) : List String → Node
  | [] => value
  | name :: names =>
    match n with
    | .file bytes => .file bytes
    | .directory entries =>
      let child := (child? entries name).getD (.directory [])
      .directory (setEntry entries name (child.put value names))

end Node

/-- The root of a tree, and the place that relative paths start from. -/
structure FileTree where
  root : Node
  cwd : List String

namespace FileTree

/-- The device that is always full. -/
def fullDevice : Path := "/dev/full"

/-! ## Walking -/

/-- The node at a place. -/
def at? (t : FileTree) (place : List String) : Option Node := t.root.get? place

/-- A way down from the root: each name with the node it leads to, the innermost first. -/
abbrev Trail := List (String × Node)

/-- The node a trail leads to. -/
def nodeAt (t : FileTree) : Trail → Node
  | [] => t.root
  | (_, node) :: _ => node

/-- The place a trail leads to. -/
def placeOf (trail : Trail) : List String := (trail.map (·.1)).reverse

/-- The most bytes a name may have. -/
def maxName : Nat := 255

/-- The most bytes a path may have. -/
def maxPath : Nat := 4095

/-- Refuses a path as a whole: one without a byte leads nowhere, and one with too many bytes is not
walked. -/
def refusal? (p : Path) : Option FileError :=
  if p == "" then some .notFound else if maxPath < p.utf8ByteSize then some .nameTooLong else none

/-- Where the pieces of a path lead to from the end of a trail. -/
def walk (t : FileTree) : Trail → List String → Except FileError Trail
  | trail, [] => .ok trail
  | trail, piece :: pieces =>
    match t.nodeAt trail with
    | .file _ => .error .notDirectory
    | .directory entries =>
      if Path.isVoid piece then walk t trail pieces
      else if piece == ".." then walk t trail.tail pieces
      else if maxName < piece.utf8ByteSize then .error .nameTooLong
      else
        match Node.child? entries piece with
        | some child => walk t ((piece, child) :: trail) pieces
        | none => .error .notFound

/-- Where pieces of a path lead to from where the path starts. -/
def walkFrom (t : FileTree) (p : Path) (pieces : List String) : Except FileError Trail :=
  if p.isAbsolute then t.walk [] pieces
  else
    match t.walk [] t.cwd with
    | .ok trail => t.walk trail pieces
    | .error e => .error e

/-- The trail of an existing path. -/
def trail (t : FileTree) (p : Path) : Except FileError Trail :=
  match refusal? p with
  | some e => .error e
  | none => t.walkFrom p p.pieces

/-- The place an existing path leads to. -/
def locate (t : FileTree) (p : Path) : Except FileError (List String) := (t.trail p).map placeOf

/-- The node an existing path leads to. -/
def node? (t : FileTree) (p : Path) : Option Node :=
  match t.trail p with
  | .ok trail => some (t.nodeAt trail)
  | .error _ => none

/-- What a path leads to, if to anything. -/
def kind? (t : FileTree) (p : Path) : Option FileKind :=
  if p == fullDevice then some .special else (t.node? p).map (·.kind)

/-- The path of a place from the root. -/
def pathOf (place : List String) : Path := "/" ++ "/".intercalate place

/-! ## Reading -/

/-- The bytes of a file. -/
def readFile (t : FileTree) (p : Path) : Except FileError (List UInt8) :=
  match t.trail p with
  | .error e => .error e
  | .ok trail =>
    match t.nodeAt trail with
    | .file bytes => .ok bytes
    | .directory _ => .error .isDirectory

/-- The names in a directory. -/
def entries (t : FileTree) (p : Path) : List String :=
  match t.node? p with
  | some (.directory es) => es.map (·.1)
  | _ => []

/-! ## Writing -/

/-- A path cut before its last piece that is not empty, and whether slashes follow that piece. -/
def cutLast (p : Path) : List String × Option String × Bool :=
  let ps := p.pieces.reverse
  let trailing := ps.takeWhile (· == "")
  match ps.drop trailing.length with
  | [] => (p.pieces, none, false)
  | last :: front => (front.reverse, some last, !trailing.isEmpty)

/-- Writes a file of the tree, replacing one that is there. -/
def writeNode (t : FileTree) (p : Path) (bytes : List UInt8) : Except FileError FileTree :=
  match refusal? p with
  | some e => .error e
  | none =>
    let (front, last, isSlashed) := cutLast p
    match t.walkFrom p front with
    | .error e => .error e
    | .ok trail =>
      match t.nodeAt trail with
      | .file _ => .error .notDirectory
      | .directory entries =>
        match last with
        | none => .error .isDirectory
        | some name =>
          -- A slash at the end asks for a directory, whatever the name leads to.
          if isSlashed || name == "." || name == ".." then .error .isDirectory
          else if maxName < name.utf8ByteSize then .error .nameTooLong
          else
            match Node.child? entries name with
            | some (.directory _) => .error .isDirectory
            | _ => .ok { t with root := t.root.put (.file bytes) (placeOf trail ++ [name]) }

/-- Writes a file. The device lets itself be opened, so only bytes are refused there. -/
def writeFile (t : FileTree) (p : Path) (bytes : List UInt8) : Except FileError FileTree :=
  if p == fullDevice then if bytes.isEmpty then .ok t else .error .noSpace
  else t.writeNode p bytes

/-- Makes one directory. -/
def makeDirectory (t : FileTree) (p : Path) : Except FileError FileTree :=
  match refusal? p with
  | some e => .error e
  | none =>
    let (front, last, _) := cutLast p
    match t.walkFrom p front with
    | .error e => .error e
    | .ok trail =>
      match t.nodeAt trail with
      | .file _ => .error .notDirectory
      | .directory entries =>
        match last with
        | none => .error .exists
        | some name =>
          if name == "." || name == ".." then .error .exists
          else if maxName < name.utf8ByteSize then .error .nameTooLong
          else if (Node.child? entries name).isSome then .error .exists
          else .ok { t with root := t.root.put (.directory []) (placeOf trail ++ [name]) }

/-- Makes a directory and those above it that are missing. The tree is returned as far as it got;
the fuel bounds the depth of the path. -/
def makeDirectoriesFrom : Nat → FileTree → Path → FileTree × Except FileError Unit
  | 0, t, _ => (t, .error .notFound)
  | fuel + 1, t, p =>
    if p == "" then (t, .ok ())
    else
      match t.makeDirectory p with
      | .ok t => (t, .ok ())
      | .error .notFound =>
        -- Something above is missing: make that first, then try again.
        match p.parent? with
        | none => (t, .error .notFound)
        | some parent =>
          match makeDirectoriesFrom fuel t parent with
          | (t, .error e) => (t, .error e)
          | (t, .ok ()) =>
            match t.makeDirectory p with
            | .ok t => (t, .ok ())
            | .error e => if t.kind? p = some .directory then (t, .ok ()) else (t, .error e)
      | .error e => if t.kind? p = some .directory then (t, .ok ()) else (t, .error e)

/-- Makes a directory and those above it that are missing. -/
def makeDirectories (t : FileTree) (p : Path) : FileTree × Except FileError Unit :=
  makeDirectoriesFrom (p.pieces.length + 1) t p

/-! ## The tree as a file system -/

/-- Looks into the tree. -/
def look {α : Type} (f : FileTree → α) : StateM FileTree α := return f (← get)

/-- Changes the tree, unless that is refused. -/
def change (f : FileTree → Except FileError FileTree) :
    StateM FileTree (Except FileError Unit) := do
  match f (← get) with
  | .ok t =>
    set t
    return .ok ()
  | .error e => return .error e

/-- The operations on a tree. -/
def system : FileSystem (StateM FileTree) where
  canonical p := look fun t => (t.locate p).map pathOf
  kind? p := look fun t => t.kind? p
  entries p := look fun t => t.entries p
  read p := look fun t => t.readFile p
  write p bytes := change fun t => t.writeFile p bytes
  makeDirectories p := do
    let (t, result) := (← get).makeDirectories p
    set t
    return result

end FileTree

end FlowWatch
