/-
What the program says about itself and about misused arguments.
-/
import FlowWatch.CommandLine.Arguments
import FlowWatch.Text.Terminal

set_option autoImplicit false

namespace FlowWatch.CommandLine

/-- The version, with the build it comes from. -/
def versionText : String := "flowrtt 0.1.0 (unknown unknown)\n"

namespace Level

/-- What the level is for. -/
def about : Level → String
  | .program =>
    "Passive TCP session tracker: round-trip times, throughput and HTTP exchanges from captures."
  | .pcap => "Operations on PCAP/PCAPNG inputs"
  | .analyse => "Track every TCP session of a capture and write a versioned JSON report"

/-- The words that lead to the level. -/
def path : Level → String
  | .program => "flowrtt"
  | .pcap => "flowrtt pcap"
  | .analyse => "flowrtt pcap analyse"

/-- How the level is used. -/
def usage (l : Level) : String :=
  "Usage: " ++ l.path ++ " [OPTIONS] " ++ if l.hasCommands then "<COMMAND>" else "<INPUT>"

end Level

namespace Parameter

/-- What the parameter is for. -/
def about : Parameter → String
  | .input => "Path (or glob pattern) to a .pcap or .pcapng file"
  | .report => "Output report path (JSON)"
  | .stdout => "Write JSON report to stdout"
  | .pretty => "Pretty-print JSON output"
  | .compact => "Compact JSON output (default)"
  | .quiet => "Suppress non-error output"
  | .config => "Tracker configuration file (JSON)"
  | .capture => "Write a one-line dump of every TCP segment to this file"
  | .dumpPayload => "Include a hex view of payloads in the capture dump"
  | .logLevel => "Log level (error, warn, info, debug, trace); overrides RUST_LOG"
  | .help => "Print help"
  | .version => "Print version"

/-- The parameter in a list, with its letter or the room for it. -/
def listed (p : Parameter) : String :=
  (match p.short? with
    | some c => String.ofList ['-', c, ',', ' ']
    | none => "    ") ++ p.shown

end Parameter

/-- A table of two columns. -/
def columns (rows : List (String × String)) : String :=
  let width := (rows.map (·.1.length)).foldl max 0
  String.join (rows.map fun r =>
    "  " ++ r.1 ++ String.ofList (List.replicate (width - r.1.length) ' ') ++ "  " ++ r.2 ++ "\n")

/-- A table under a heading, unless there is nothing in it. -/
def tableText (heading : String) (rows : List (String × String)) : String :=
  if rows.isEmpty then "" else "\n" ++ heading ++ ":\n" ++ columns rows

/-- What the command that shows help is for. -/
def helpAbout : String := "Print this message or the help of the given subcommand(s)"

/-- The commands of a level. -/
def Level.commandRows : Level → List (String × String)
  | .program => [("pcap", Level.pcap.about), ("help", helpAbout)]
  | .pcap => [("analyse", Level.analyse.about), ("help", helpAbout)]
  | .analyse => []

/-- The inputs of a level. -/
def Level.inputRows : Level → List (String × String)
  | .analyse => [(Parameter.input.shown, Parameter.input.about)]
  | _ => []

/-- Some uses to start from. -/
def examples : String :=
  "\nExamples:\n" ++
  "  flowrtt pcap analyse capture.pcapng -o report.json\n" ++
  "  flowrtt pcap analyze capture.pcap --stdout --pretty\n" ++
  "  flowrtt pcap analyse 'captures/*.pcapng' -o report.json --config tracker.json\n" ++
  "  flowrtt pcap analyse capture.pcap --stdout --capture segments.txt --dump-payload\n"

/-- The help on a level. -/
def helpText (l : Level) : String :=
  l.about ++ "\n\n" ++ l.usage ++ "\n" ++ tableText "Commands" l.commandRows ++
    tableText "Arguments" l.inputRows ++
    tableText "Options" (l.parameters.map fun p => (p.listed, p.about)) ++
    if l == .pcap then "" else examples

/-- The help on the command of a level that shows help. -/
def helpOnHelpText (l : Level) : String :=
  helpAbout ++ "\n\nUsage: " ++ l.path ++ " help [COMMAND]...\n" ++
    tableText "Arguments" [("[COMMAND]...", "Print help for the subcommand(s)")]

namespace ArgumentError

/-- The fault in words. What was typed is shown without control sequences, so that it cannot
change how the rest is shown. -/
def message : ArgumentError → String
  | .unexpected word => "unexpected argument '" ++ Text.Terminal.shown word ++ "' found"
  | .unknownCommand word => "unrecognized subcommand '" ++ Text.Terminal.shown word ++ "'"
  | .unwantedValue p => "unexpected value for '" ++ p.shown ++ "' found; no more were expected"
  | .conflict p q =>
    if p == q then "the argument '" ++ p.shown ++ "' cannot be used multiple times"
    else "the argument '" ++ p.shown ++ "' cannot be used with '" ++ q.shown ++ "'"
  | .missing p => "the following required arguments were not provided:\n  " ++ p.shown
  | .missingCommand => "a command is required"
  | .noValue p => "a value is required for '" ++ p.shown ++ "' but none was supplied"
  | .unknownLevel word =>
    "invalid value '" ++ Text.Terminal.shown word ++ "' for '" ++ Parameter.logLevel.shown ++
      "': attempted to convert a string that doesn't match an existing log level"

/-- Whether the usage of the level is shown: not for a fault of a value. -/
def showsUsage : ArgumentError → Bool
  | .noValue _ | .unknownLevel _ => false
  | _ => true

/-- What is said about misuse of a level. -/
def text (level : Level) (e : ArgumentError) : String :=
  "error: " ++ e.message ++ "\n\n" ++ (if e.showsUsage then level.usage ++ "\n\n" else "") ++
    "For more information, try '--help'.\n"

end ArgumentError

end FlowWatch.CommandLine
