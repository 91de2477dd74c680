/-
The command that analyses one capture.

The input may be a pattern that stands for exactly one file. Neither the report nor the dump may
be the capture itself; that is compared by the directory each of them lies in, so a path into a
directory that does not exist yet passes. The dump's file is made before the analysis and the
report's file after it.
-/
import FlowWatch.Analysis
import FlowWatch.CommandLine.Arguments
import FlowWatch.Config.Reader
import FlowWatch.Files.Glob
import FlowWatch.Report.Codec

set_option autoImplicit false

namespace FlowWatch.CommandLine

open Capture (SourceError)

/-- Why the command fails, and perhaps what to do about it. -/
structure Failure where
  message : String
  hint : Option String := none
  deriving DecidableEq, Repr

/-- What the command prints. -/
structure Printed where
  stdout : String := ""
  stderr : String := ""
  deriving DecidableEq, Repr

/-! ## Faults in words -/

/-- The fault of a source. -/
def sourceText : SourceError → String
  | .unreadable => "I/O error: failed to fill whole buffer"
  | .truncated context => "capture truncated: " ++ context
  | .malformed context => "PCAP parse error: " ++ context ++ ": malformed block"

/-- The fault of an analysis, followed by what caused it. -/
def analysisText : AnalysisError → String
  | .dumpLost => "I/O error: the dump could not be completed"
  | .sizeUnknown => "I/O error: the size of the capture is not known"
  | .source .unreadable =>
    "Source error: " ++ sourceText .unreadable ++ ": " ++ sourceText .unreadable ++
      ": failed to fill whole buffer"
  | .source e => "Source error: " ++ sourceText e ++ ": " ++ sourceText e

/-- The fault of a dump that cannot be written, followed by what caused it. -/
def dumpText (e : FileError) : String := "I/O error: " ++ e.message ++ ": " ++ e.message

/-- A report with a time that has no written form. -/
def unwritableTime : Failure :=
  ⟨"JSON serialization failed: The year component cannot be formatted into the requested format.",
    none⟩

/-- The first three of the files a pattern stands for. -/
def listed (paths : List Path) : String :=
  ", ".intercalate (paths.take 3) ++ if 3 < paths.length then ", ..." else ""

/-! ## Steps -/

section

variable {m : Type → Type} [Monad m] (fs : FileSystem m)

/-- A step that may fail. -/
abbrev Step (m : Type → Type) (α : Type) : Type := ExceptT Failure m α

/-- The one file that a pattern stands for. -/
def onlyMatch (pattern : String) (paths : List Path) : Step m Path :=
  match paths with
  | [path] => return path
  | [] =>
    throw ⟨"no files match pattern '" ++ pattern ++ "'",
      some "check the path or quote the pattern; expected .pcap or .pcapng"⟩
  | paths =>
    throw ⟨"multiple files match pattern '" ++ pattern ++ "' (" ++
      String.ofList (Text.decimal paths.length) ++ " matches); matches: " ++ listed paths,
      some "pass a single capture file, or run once per file"⟩

/-- The path of the input, which may be given by a pattern. -/
def resolveInput (input : Path) : Step m Path := do
  if !Wildcard.isPattern input then return input
  match Glob.ofString? input with
  | none =>
    throw ⟨"invalid input pattern '" ++ input ++ "'", some "pattern error: malformed pattern"⟩
  | some glob =>
    let paths ← (glob.expand fs : m (List Path))
    let files ← paths.filterM fun p => return (← fs.kind? p) == some .file
    onlyMatch input files

/-- The extension of a path in small letters. -/
def smallExtension (p : Path) : String :=
  String.ofList ((p.extension?.getD "").toList.map Char.toLower)

/-- Refuses an input that is no capture file by its name. -/
def validateInput (input : Path) : Step m Unit := do
  match ← fs.kind? input with
  | none => throw ⟨"input file not found: " ++ input, some "use a .pcap or .pcapng file"⟩
  | some .file =>
    if smallExtension input != "pcap" && smallExtension input != "pcapng" then
      throw ⟨"unsupported input format '" ++ input ++ "'", some "expected a .pcap or .pcapng file"⟩
  | some _ => throw ⟨"input is not a file: " ++ input, some "use a .pcap or .pcapng file"⟩

/-- The path without dots of the input. -/
def canonicalInput (input : Path) : Step m Path := do
  match ← fs.canonical input with
  | .ok p => return p
  | .error e => throw ⟨"Failed to resolve input path: " ++ input ++ ": " ++ e.message, none⟩

/-- Refuses an output that is the input. An output whose directory does not exist yet is not
compared. -/
def ensureDistinct (what : String) (output input : Path) : Step m Unit := do
  match output.parent? with
  | none => return
  | some parent =>
    match ← fs.canonical (if parent == "" then "." else parent) with
    | .error _ => return
    | .ok dir =>
      match output.fileName? with
      | none => throw ⟨"Invalid report path: " ++ output, none⟩
      | some name =>
        if Path.join dir name == input then
          throw ⟨what ++ " path must differ from input: " ++ output,
            some "choose a different output path"⟩

/-- The settings in a file, or the default ones. -/
def readConfig (path : Option Path) : Step m Config := do
  match path with
  | none => return {}
  | some path =>
    let read ← fs.read path
    let config : Except ConfigError Config := match read with
      | .error e => .error (.unreadable e.message)
      | .ok bytes => Config.ofBytes bytes
    match config with
    | .ok config => return config
    | .error e =>
      throw ⟨"invalid configuration " ++ path ++ ": " ++ e.message,
        some "expected a JSON object such as \x7b\"idle_timeout_secs\": 120\x7d"⟩

/-- Writes a file; `what` says what could not be done if that fails. -/
def writeOrFail (what : String) (path : Path) (bytes : List UInt8) : Step m Unit := do
  match ← fs.write path bytes with
  | .ok () => return
  | .error e => throw ⟨what ++ ": " ++ path ++ ": " ++ e.message, none⟩

/-- What was dumped as bytes. -/
def dumpBytes (dump : Option (Dump.Writer (List String))) : List UInt8 :=
  match dump with
  | some w => Text.Utf8.encode (Dump.memoryText w.state).toList
  | none => []

/-- Analyses a capture file, writing the dump if one is asked for. -/
def analyseFile (input : Path) (config : Config) (dump : Option DumpOptions) : Step m Report := do
  let writer := dump.map fun d => Dump.toMemory d.withPayload
  -- The file is made first, so that an unwritable one is told before the work is done.
  if let some d := dump then writeOrFail fs "Failed to create capture dump" d.path []
  let fail (reason : String) : Step m Report :=
    throw ⟨"PCAP/PCAPNG analysis failed: " ++ reason, none⟩
  match ← fs.read input with
  | .error _ => fail (analysisText (.source .unreadable))
  | .ok bytes =>
    match Capture.openFile bytes with
    | .error e => fail (analysisText (.source e))
    | .ok source =>
      let (writer, result) :=
        Analysis.withDump input (some (UInt64.ofNat bytes.length)) source config writer
      let written ← match dump with
        | some d => fs.write d.path (dumpBytes writer)
        | none => pure (.ok ())
      -- A dump that cannot be written is told even where the source has failed too.
      match written, result with
      | .error e, _ => fail (dumpText e)
      | .ok (), .error e => fail (analysisText e)
      | .ok (), .ok report => return report

/-- Writes the report to its file, making the directories above it. -/
def writeReport (path : Path) (text : String) : Step m Unit := do
  if let some parent := path.parent? then
    if parent != "" then
      match ← fs.makeDirectories parent with
      | .ok () => pure ()
      | .error e =>
        throw ⟨"Failed to create output directory: " ++ parent ++ ": " ++ e.message, none⟩
  writeOrFail fs "Failed to write report" path (Text.Utf8.encode text.toList)

/-- What is said about a report that was written. -/
def writtenText (path : Path) (report : Report) : String :=
  "OK: report written -> " ++ path ++ " (" ++ String.ofList (Text.decimal report.sessions.length) ++
    " sessions, " ++ String.ofList (Text.decimal report.exchanges.length) ++ " exchanges)\n"

/-- Runs the command. -/
def analyse (o : Options) : Step m Printed := do
  let input ← resolveInput fs o.input
  validateInput fs input
  let canonical ← canonicalInput fs input
  if let .file path := o.destination then ensureDistinct fs "report" path canonical
  if let some d := o.dump then ensureDistinct fs "capture dump" d.path canonical
  let config ← readConfig fs o.config
  let report ← analyseFile fs input config o.dump
  match report.render? o.layout with
  | none => throw unwritableTime
  | some text =>
    match o.destination with
    | .stdout => return { stdout := text }
    | .file path =>
      writeReport fs path text
      return { stderr := if o.quiet then "" else writtenText path report }

end

end FlowWatch.CommandLine
