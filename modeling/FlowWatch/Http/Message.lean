/-
HTTP/1 requests and responses.

A request line has a method, a target and a version with single spaces between them; a status line
has a version, a three-digit code and an optional reason, which may contain spaces. Where a line
has several faults, the first test in the order below names the error. The host of a request is
the authority of its target, else the value of the first Host header.
-/
import FlowWatch.Http.Cursor

set_option autoImplicit false

namespace FlowWatch.Http

open Text

/-- A protocol version. -/
structure Version where
  major : Nat
  minor : Nat
  deriving DecidableEq, Repr

/-- The head of a request. -/
structure Request where
  method : String
  target : String
  version : Version
  host : Option String
  headers : List Field
  deriving DecidableEq, Repr

/-- The head of a response. -/
structure Response where
  version : Version
  status : UInt16
  reason : String
  headers : List Field
  deriving DecidableEq, Repr

/-! ## Versions -/

/-- The text that opens a version. -/
def versionOpening : List Char := ['H', 'T', 'T', 'P', '/']

/-- The greatest version component. -/
def greatestComponent : Nat := 1000000

/-- A version component: decimal digits after at most one plus sign. -/
def component? (cs : List Char) : Option Nat :=
  let digits := match cs with
    | '+' :: rest => rest
    | cs => cs
  -- The first number beyond the greatest component stands for all of those.
  let n := valueUpTo (greatestComponent + 1) digits
  if digits.isEmpty || !digits.all isDigit || greatestComponent < n then none else some n

/-- Reads `HTTP/` and two components with a point between them. -/
def version? (cs : List Char) : Option Version :=
  if versionOpening.isPrefixOf cs then
    let numbers := cs.drop versionOpening.length
    let major := numbers.takeWhile (· != '.')
    match numbers.drop major.length with
    | [] => none
    | _ :: minor => do some ⟨← component? major, ← component? minor⟩
  else none

/-- A version, or the error that quotes the text. -/
def Version.parse (cs : List Char) : Except HttpError Version :=
  match version? cs with
  | some v => .ok v
  | none => .error (.invalidVersion (String.ofList cs))

/-! ## Targets -/

/-- The characters of a URI scheme. -/
def isSchemeChar (c : Char) : Bool :=
  isDigit c || (65 ≤ c.toNat && c.toNat ≤ 90) || (97 ≤ c.toNat && c.toNat ≤ 122) || c == '+'

/-- The text before the first `://` and the text after it. -/
def splitScheme : List Char → Option (List Char × List Char)
  | [] => none
  | c :: cs =>
    match c, cs with
    | ':', '/' :: '/' :: rest => some ([], rest)
    | _, _ => (splitScheme cs).map fun p => (c :: p.1, p.2)

/-- The authority a target names, if any; an error for a target of none of the four forms. -/
def authority (target : List Char) : Except HttpError (Option String) :=
  if target == ['*'] || target.head? == some '/' then .ok none
  else
    match splitScheme target with
    | some (scheme, rest) =>
      if scheme.isEmpty || !scheme.all isSchemeChar then
        .error (.invalidTarget (String.ofList target))
      else
        let name := rest.takeWhile fun c => c != '/' && c != '?' && c != '#'
        .ok (if name.isEmpty then none else some (String.ofList name))
    | none =>
      -- Without a scheme only a bare authority is left: a colon and no path.
      if target.contains ':' && !target.contains '/' then .ok (some (String.ofList target))
      else .error (.invalidTarget (String.ofList target))

/-! ## Start lines -/

/-- The words of a line cut at its first two spaces; the third word keeps any further ones. -/
def threeWords (line : List Char) : List Char × Option (List Char × Option (List Char)) :=
  let cut (cs : List Char) : List Char × Option (List Char) :=
    let word := cs.takeWhile (· != ' ')
    match cs.drop word.length with
    | [] => (word, none)
    | _ :: rest => (word, some rest)
  let (first, rest) := cut line
  (first, rest.map cut)

/-- Whether two names are equal up to the case of ASCII letters. -/
def sameName (a b : String) : Bool :=
  a.toList.map Char.toLower == b.toList.map Char.toLower

/-- The value of the first Host header. -/
def hostField? (headers : List Field) : Option String :=
  (headers.find? fun f => sameName f.1 "host").map (·.2)

/-- Reads the head of a request. -/
def Request.parse (payload : List UInt8) : Except HttpError Request := do
  let (line, cursor) := (Cursor.new payload).startLine
  let line ← line
  match threeWords line.toList with
  | (method, some (target, some version)) =>
    if method.isEmpty || target.isEmpty then .error (.malformedRequestLine line)
    else
      let version ← Version.parse version
      let authority ← authority target
      let headers := cursor.headers.1
      return {
        method := String.ofList method
        target := String.ofList target
        version := version
        host := authority <|> hostField? headers
        headers := headers }
  | _ => .error (.malformedRequestLine line)

/-- A status code of exactly three digits. -/
def status? (code : List Char) : Option UInt16 :=
  if code.length == 3 then (value? code).map UInt16.ofNat else none

/-- Reads the head of a response. -/
def Response.parse (payload : List UInt8) : Except HttpError Response := do
  let (line, cursor) := (Cursor.new payload).startLine
  let line ← line
  match threeWords line.toList with
  | (version, some (code, reason)) =>
    match status? code with
    -- A bad code is told before a bad version.
    | none => .error (.invalidStatusCode (String.ofList code))
    | some status =>
      let version ← Version.parse version
      return {
        version := version
        status := status
        reason := String.ofList (reason.getD [])
        headers := cursor.headers.1 }
  | _ => .error (.malformedStatusLine line)

end FlowWatch.Http
