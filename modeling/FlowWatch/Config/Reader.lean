/-
Settings as JSON text.

Settings are an object with any of the named members, each at most once, or an array with the
values in order, of which the last ones may be missing. Nothing else is accepted. The text is read
from the left and the first fault is reported.
-/
import FlowWatch.Config.Basic
import FlowWatch.Json.Reader
import FlowWatch.Text.Utf8

set_option autoImplicit false

namespace FlowWatch

open Text

/-- Why there are no settings. -/
inductive ConfigError where
  /-- There is no text to read them from. -/
  | unreadable (reason : String)
  | json (e : JsonError)
  | invalid (r : ConfigRefusal)
  deriving DecidableEq, Repr

namespace ConfigError

/-- The refusal in words. -/
def message : ConfigError → String
  | .unreadable reason => "failed to read config: " ++ reason
  | .json e => "invalid config JSON: " ++ e.message
  | .invalid r => r.message

end ConfigError

namespace Config

open Json

/-- Reads a value that is not the one asked for, and refuses it; a fault in its text comes first.
-/
def refuseValue {α : Type} : List Char → Except JsonError α
  | [] => .error .ended
  | c :: cs =>
    if c == '"' then do
      let _ ← stringBody cs
      .error .content
    else if c == 'n' then do
      let _ ← word ['u', 'l', 'l'] cs
      .error .content
    else if c == 't' then do
      let _ ← word ['r', 'u', 'e'] cs
      .error .content
    else if c == 'f' then do
      let _ ← word ['a', 'l', 's', 'e'] cs
      .error .content
    else if c == '[' || c == '\x7b' then .error .content
    else if c == '-' || isDigit c then do
      let _ ← numeral (c :: cs)
      .error .content
    else .error .grammar

/-- Reads a natural number up to `limit`. -/
def natural (limit : Nat) (cs : List Char) : Except JsonError (Nat × List Char) := do
  let cs := skipGap cs
  if cs.head?.any fun c => c == '-' || isDigit c then
    let (n, cs) ← numeral cs
    match n with
    | .integer n => if 0 ≤ n && n ≤ limit then .ok (n.toNat, cs) else .error .content
    | .other => .error .content
  else refuseValue cs

/-- Reads the members of an object behind those of `seen`; the fuel bounds the length of the text.
-/
def membersFrom : Nat → List ConfigField → Config → List Char →
    Except JsonError (Config × List Char)
  | 0, _, _, _ => .error .ended
  | fuel + 1, seen, config, cs =>
    match skipGap cs with
    | [] => .error .ended
    | c :: rest =>
      if c == '\x7d' then .ok (config, rest)
      else
        let here := if seen.isEmpty then some (c :: rest)
          else if c == ',' then some (skipGap rest) else none
        match here with
        | none => .error .grammar
        | some [] => .error .ended
        | some (d :: rest) =>
          if d != '"' then .error .grammar
          else do
            let (name, cs) ← stringBody rest
            match ConfigField.ofName? name with
            | none => .error .content
            | some field =>
              -- A second value is refused by its name, before it is read.
              if seen.contains field then .error .content
              else do
                let cs ← expectChar ':' (skipGap cs)
                let (n, cs) ← natural field.limit cs
                membersFrom fuel (field :: seen) (config.set n field) cs

/-- Reads the end of an array. -/
def arrayEnd (cs : List Char) : Except JsonError (List Char) :=
  match skipGap cs with
  | [] => .error .ended
  | c :: rest => if c == ']' then .ok rest else .error .grammar

/-- Reads the values of an array for the given fields in order. -/
def itemsFrom (isFirst : Bool) (config : Config) :
    List ConfigField → List Char → Except JsonError (Config × List Char)
  | [], cs => do return (config, ← arrayEnd cs)
  | field :: fields, cs =>
    match skipGap cs with
    | [] => .error .ended
    | c :: rest =>
      if c == ']' then .ok (config, rest)
      else if isFirst then do
        let (n, cs) ← natural field.limit (c :: rest)
        itemsFrom false (config.set n field) fields cs
      else if c == ',' then
        match skipGap rest with
        | [] => .error .ended
        | d :: _ =>
          if d == ']' then .error .grammar
          else do
            let (n, cs) ← natural field.limit rest
            itemsFrom false (config.set n field) fields cs
      else .error .grammar

/-- Reads settings at the head of a text. -/
def readFrom (cs : List Char) : Except JsonError (Config × List Char) :=
  match skipGap cs with
  | [] => .error .ended
  | c :: rest =>
    if c == '\x7b' then membersFrom (rest.length + 1) [] {} rest
    else if c == '[' then itemsFrom true {} ConfigField.all rest
    else refuseValue (c :: rest)

/-- The settings a text stands for, not validated. -/
def read (s : String) : Except JsonError Config := do
  let (config, rest) ← readFrom s.toList
  atEnd config rest

/-- The valid settings a text stands for. -/
def parse (s : String) : Except ConfigError Config :=
  match read s with
  | .error e => .error (.json e)
  | .ok config =>
    match config.validate with
    | .error r => .error (.invalid r)
    | .ok () => .ok config

/-- The valid settings in the bytes of a file, which have to be UTF-8. -/
def ofBytes (bytes : List UInt8) : Except ConfigError Config :=
  match Utf8.decode? bytes with
  | none => .error (.unreadable "stream did not contain valid UTF-8")
  | some cs => parse (String.ofList cs)

end Config

end FlowWatch
