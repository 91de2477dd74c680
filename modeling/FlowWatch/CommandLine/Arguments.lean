/-
The arguments of the program.

The program has nested commands, and each level has parameters of its own. Arguments are taken
from the left: a word that names a command leads one level down, a word that starts with a dash
names parameters, any other one is the value that the parameter before it waits for, or else the
input. A parameter is taken in only when the next one starts or the arguments end, so a fault
found in between is told first. After two dashes every word is the input.
-/
import FlowWatch.Files.Path
import FlowWatch.Json.Value

set_option autoImplicit false

namespace FlowWatch.CommandLine

/-! ## Levels and parameters -/

/-- The commands, from the outermost one inwards. -/
inductive Level where
  | program
  | pcap
  | analyse
  deriving DecidableEq, Repr

/-- Everything an argument can set. -/
inductive Parameter where
  | input
  | report
  | stdout
  | pretty
  | compact
  | quiet
  | config
  | capture
  | dumpPayload
  | logLevel
  | help
  | version
  deriving DecidableEq, Repr

namespace Parameter

/-- The name behind two dashes. -/
def long? : Parameter → Option String
  | .input => none
  | .report => some "report"
  | .stdout => some "stdout"
  | .pretty => some "pretty"
  | .compact => some "compact"
  | .quiet => some "quiet"
  | .config => some "config"
  | .capture => some "capture"
  | .dumpPayload => some "dump-payload"
  | .logLevel => some "log-level"
  | .help => some "help"
  | .version => some "version"

/-- The letter behind one dash. -/
def short? : Parameter → Option Char
  | .report => some 'o'
  | .help => some 'h'
  | .version => some 'V'
  | _ => none

/-- The name of the value, if there is one. -/
def valueName? : Parameter → Option String
  | .input => some "INPUT"
  | .report => some "REPORT"
  | .config => some "CONFIG"
  | .capture => some "FILE"
  | .logLevel => some "LOG_LEVEL"
  | _ => none

/-- Whether a value belongs to the parameter. -/
def takesValue (p : Parameter) : Bool := p.valueName?.isSome

/-- The parameter as messages show it. -/
def shown (p : Parameter) : String :=
  let name := (p.long?.map ("--" ++ ·)).toList
  let value := (p.valueName?.map ("<" ++ · ++ ">")).toList
  " ".intercalate (name ++ value)

end Parameter

namespace Level

/-- The parameters of a level. -/
def parameters : Level → List Parameter
  | .program => [.logLevel, .help, .version]
  | .pcap => [.logLevel, .help]
  | .analyse =>
    [.logLevel, .report, .stdout, .pretty, .compact, .quiet, .config, .capture, .dumpPayload, .help]

/-- The level a command word leads to. -/
def command? (l : Level) (word : String) : Option Level :=
  match l with
  | .program => if word == "pcap" then some .pcap else none
  | .pcap => if word == "analyse" || word == "analyze" then some .analyse else none
  | .analyse => none

/-- Whether the level has commands, and so the command that shows help. -/
def hasCommands : Level → Bool
  | .analyse => false
  | _ => true

/-- The parameter with a name. -/
def long? (l : Level) (name : String) : Option Parameter :=
  l.parameters.find? fun p => p.long? == some name

/-- The parameter with a letter. -/
def short? (l : Level) (letter : Char) : Option Parameter :=
  l.parameters.find? fun p => p.short? == some letter

end Level

/-! ## Outcomes -/

/-- Where a report goes. -/
inductive Destination where
  | stdout
  | file (path : Path)
  deriving DecidableEq, Repr

/-- Where a dump goes, and whether it shows payloads. -/
structure DumpOptions where
  path : Path
  withPayload : Bool
  deriving DecidableEq, Repr

/-- What an analysis is asked to do. -/
structure Options where
  input : Path
  destination : Destination
  layout : Json.Layout
  quiet : Bool
  config : Option Path
  dump : Option DumpOptions
  deriving DecidableEq, Repr

/-- What is wrong with the arguments. -/
inductive ArgumentError where
  | unexpected (word : String)
  | unknownCommand (word : String)
  | unwantedValue (p : Parameter)
  /-- Two parameters exclude each other, or one is given twice. -/
  | conflict (p q : Parameter)
  | missing (p : Parameter)
  | missingCommand
  | noValue (p : Parameter)
  | unknownLevel (word : String)
  deriving DecidableEq, Repr

/-- Why there is nothing to do after all. -/
inductive Halt where
  | help (level : Level)
  /-- Help on the command that shows help. -/
  | helpOnHelp (level : Level)
  | version
  /-- A level that needs a command got no arguments at all. -/
  | idle (level : Level)
  | misuse (level : Level) (e : ArgumentError)
  deriving DecidableEq, Repr

/-! ## Taking parameters in -/

/-- The names of the log levels. -/
def logLevels : List String := ["OFF", "ERROR", "WARN", "INFO", "DEBUG", "TRACE"]

/-- Whether a word names a log level, in letters of either case. -/
def isLogLevel (word : String) : Bool :=
  logLevels.contains (String.ofList (word.toList.map Char.toUpper))

/-- The parameters of one level so far. The pending one has come last; if it lacks its value, it
waits for the next word. -/
structure Taken where
  values : List (Parameter × String) := []
  pending : Option (Parameter × Option String) := none
  deriving DecidableEq, Repr

namespace Taken

/-- Whether a parameter has been taken in. -/
def has (t : Taken) (p : Parameter) : Bool := t.values.any (·.1 == p)

/-- The value of a parameter. -/
def value? (t : Taken) (p : Parameter) : Option String := (t.values.find? (·.1 == p)).map (·.2)

/-- Whether the next word is the value of a parameter. -/
def isWaiting (t : Taken) : Bool :=
  match t.pending with
  | some (_, none) => true
  | _ => false

/-- Whether the input has been given. -/
def hasInput (t : Taken) : Bool := t.has .input || t.pending.any (·.1 == .input)

/-- Takes a parameter in. Paths must not be empty. -/
def take (t : Taken) (p : Parameter) (value : String) : Except ArgumentError Taken :=
  if t.has p then .error (.conflict p p)
  else if p == .logLevel && !isLogLevel value then .error (.unknownLevel value)
  else if p.takesValue && p != .logLevel && value.isEmpty then .error (.noValue p)
  else .ok { t with values := t.values ++ [(p, value)] }

/-- Takes the pending parameter in. -/
def resolve (t : Taken) : Except ArgumentError Taken :=
  match t.pending with
  | none => .ok t
  | some (p, none) => .error (.noValue p)
  | some (p, some value) => { t with pending := none }.take p value

/-- Takes a parameter in whose value is already there. -/
def attach (t : Taken) (p : Parameter) (value : String) : Except ArgumentError Taken := do
  (← t.resolve).take p value

/-- Starts a parameter whose value is a word of its own. -/
def await (t : Taken) (p : Parameter) (word : Option String) : Except ArgumentError Taken := do
  return { ← t.resolve with pending := some (p, word) }

/-- Gives the waiting parameter its value. -/
def give (t : Taken) (word : String) : Taken :=
  { t with pending := t.pending.map fun w => (w.1, some word) }

end Taken

/-- Misuse of a level. -/
def misused {α : Type} (level : Level) : Except ArgumentError α → Except Halt α
  | .ok a => .ok a
  | .error e => .error (.misuse level e)

/-- Takes a parameter without a value in; two of them end the run. -/
def flag (level : Level) (t : Taken) (p : Parameter) : Except Halt Taken := do
  let t ← misused level t.resolve
  match p with
  | .help => .error (.help level)
  | .version => .error .version
  | p => misused level (t.take p "")

/-! ## Reading -/

/-- Reads what stands behind two dashes: a name, and perhaps a value after an equals sign. -/
def long (level : Level) (t : Taken) (cs : List Char) : Except Halt Taken :=
  let name := cs.takeWhile (· != '=')
  match level.long? (String.ofList name), cs.drop name.length with
  | none, _ => .error (.misuse level (.unexpected ("--" ++ String.ofList name)))
  | some p, [] => if p.takesValue then misused level (t.await p none) else flag level t p
  | some p, _ :: value =>
    if p.takesValue then misused level (t.attach p (String.ofList value))
    else .error (.misuse level (.unwantedValue p))

/-- Reads the letters behind one dash. What follows a letter that takes a value is that value. -/
def short (level : Level) (t : Taken) : List Char → Except Halt Taken
  | [] => .ok t
  | c :: cs =>
    match level.short? c with
    | none => .error (.misuse level (.unexpected (String.ofList ['-', c])))
    | some p =>
      if p.takesValue then
        match cs with
        | [] => misused level (t.await p none)
        | '=' :: value => misused level (t.attach p (String.ofList value))
        | value => misused level (t.attach p (String.ofList value))
      else do short level (← flag level t p) cs

/-- What a word is taken for. -/
inductive Word where
  | command (level : Level)
  | help
  | dashes
  | long (cs : List Char)
  | short (cs : List Char)
  | value
  | input
  deriving DecidableEq, Repr

/-- What a word is taken for; `bare` says that two dashes came before. -/
def Word.of (level : Level) (bare waiting : Bool) (word : String) : Word :=
  if bare then .input
  else
    match if waiting then none else level.command? word with
    | some level => .command level
    | none =>
      if !waiting && level.hasCommands && word == "help" then .help
      else
        match word.toList with
        | ['-', '-'] => .dashes
        | '-' :: '-' :: cs => .long cs
        | '-' :: c :: cs => .short (c :: cs)
        | _ => if waiting then .value else .input

/-- What help is asked about. The command that shows help has no commands of its own. -/
def helpOn (level : Level) : List String → Halt
  | [] => .help level
  | word :: words =>
    match level.command? word with
    | some level => helpOn level words
    | none =>
      match level.hasCommands && word == "help", words with
      | true, [] => .helpOnHelp level
      | true, word :: _ => .misuse level (.unknownCommand word)
      | false, _ => .misuse level (.unknownCommand word)

/-- The options of a complete set of parameters. -/
def Taken.options (t : Taken) : Except ArgumentError Options := do
  if t.has .stdout && t.has .report then throw (.conflict .stdout .report)
  if t.has .pretty && t.has .compact then throw (.conflict .pretty .compact)
  let some input := t.value? .input | throw (.missing .input)
  let destination ← match t.value? .report with
    | some path => pure (.file path)
    | none => if t.has .stdout then pure .stdout else throw (.missing .report)
  let dump ← match t.value? .capture with
    | some path => pure (some ⟨path, t.has .dumpPayload⟩)
    | none => if t.has .dumpPayload then throw (.missing .capture) else pure none
  return {
    input := input
    destination := destination
    layout := if t.has .pretty then .indented else .compact
    quiet := t.has .quiet
    config := t.value? .config
    dump := dump }

/-- Ends a level. -/
def finish (level : Level) (t : Taken) : Except Halt Options := do
  let t ← misused level t.resolve
  if level.hasCommands then
    .error (if t.values.isEmpty then .idle level else .misuse level .missingCommand)
  else misused level t.options

/-- Reads the arguments of a level. -/
def readFrom (level : Level) (bare : Bool) (t : Taken) : List String → Except Halt Options
  | [] => finish level t
  | word :: words =>
    match Word.of level bare t.isWaiting word with
    | .command inner => do
      -- The inner level is read whole before the value pending on this one is checked.
      let options ← readFrom inner false {} words
      let _ ← misused level t.resolve
      return options
    | .help => .error (helpOn level words)
    | .dashes => readFrom level true t words
    | .long cs => do readFrom level false (← long level t cs) words
    | .short cs => do readFrom level false (← short level t cs) words
    | .value => readFrom level false (t.give word) words
    | .input =>
      if level.hasCommands then .error (.misuse level (.unknownCommand word))
      else if t.hasInput then .error (.misuse level (.unexpected word))
      else do readFrom level bare (← misused level (t.await .input (some word))) words

/-- Reads the arguments of the program. -/
def Options.read (args : List String) : Except Halt Options := readFrom .program false {} args

end FlowWatch.CommandLine
