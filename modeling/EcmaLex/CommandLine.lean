import EcmaLex.FileText
import EcmaLex.Listing.Dump
import EcmaLex.Report.Basic

/-!
# The command line

The program has one command that does something: it dumps the tokens of a file
and reports what is wrong with it.  What the program does depends on its
arguments and on what reading one file gives, and is worked out here without
doing it.

## Main definitions

* `ListingOptions.ofArgs` — the options after the file name.
* `Command.ofArgs` — the command that the arguments give.
* `Command.run` — what the program prints, and its exit status.
-/

namespace EcmaLex

/-! ### Options -/

/-- The options of a dump. -/
structure ListingOptions where
  /-- How the text is scanned. -/
  settings : Settings := {}
  /-- Whether raw texts are shown. -/
  showRaw : Bool := false
  deriving DecidableEq, Repr

/-- Why arguments are no options. -/
inductive OptionError where
  /-- No option is spelled like this. -/
  | unknown (arg : String)
  deriving DecidableEq, Repr

/-- The text of the error. -/
def OptionError.message : OptionError → String
  | unknown arg => s!"unknown option '{arg}'"

namespace ListingOptions

/-- Sets what one argument says. -/
def set (o : ListingOptions) (arg : String) : Except OptionError ListingOptions :=
  match arg with
  | "--module" => .ok { o with settings := { o.settings with goal := .module } }
  | "--raw" => .ok { o with showRaw := true }
  | "--no-separators" => .ok { o with settings := { o.settings with numericSeparators := false } }
  | "--no-hashbang" => .ok { o with settings := { o.settings with hashbang := false } }
  | _ => .error (.unknown arg)

/-- The options that some arguments give.  The first one that is no option is
reported. -/
def ofArgs (args : List String) : Except OptionError ListingOptions :=
  args.foldlM set {}

end ListingOptions

/-! ### Commands -/

/-- What the arguments ask for. -/
inductive Command where
  /-- The help text, asked for. -/
  | help
  /-- The version. -/
  | version
  /-- The dump of a file. -/
  | list (path : String) (options : ListingOptions)
  /-- A dump, but of no file. -/
  | listNothing
  /-- A dump with bad options. -/
  | badOption (error : OptionError)
  /-- No command at all. -/
  | unknown (name : String)
  deriving DecidableEq, Repr

/-- The command that the arguments give. -/
def Command.ofArgs : List String → Command
  | [] => .help
  | "lex" :: [] => .listNothing
  | "lex" :: path :: options =>
    match ListingOptions.ofArgs options with
    | .ok options => .list path options
    | .error error => .badOption error
  | name :: _ =>
    if ["help", "--help", "-h"].contains name then .help
    else if ["version", "--version", "-v"].contains name then .version
    else .unknown name

/-- What a run of the program leaves behind. -/
structure Outcome where
  /-- The exit status. -/
  status : Nat := 0
  /-- What is printed. -/
  output : String := ""
  /-- What is printed as errors. -/
  errors : String := ""
  deriving DecidableEq, Repr

/-- Some lines, every one ended by a line feed. -/
def unlines (lines : List String) : String := String.join (lines.map (· ++ "\n"))

/-- The help text. -/
def helpText : String := unlines
  ["Quill JavaScript scanner",
    "",
    "Usage: quill <command> [options]",
    "",
    "Commands:",
    "  lex <file.js>        Print the token stream of a file",
    "  help                 Show this help message",
    "  version              Show version information",
    "",
    "Lex options:",
    "  --module            Scan as module code",
    "  --raw               Also print raw literal text",
    "  --no-separators     Reject numeric separators",
    "  --no-hashbang       Treat a leading #! as an error",
    "",
    "Set RUST_LOG=quill_lexer=trace to trace the scanner."]

/-- The help text of the dump command. -/
def listHelpText : String := unlines
  ["Usage: quill lex <file.js> [options]",
    "",
    "Options:",
    "  --module          Scan as module code (rejects HTML-like comments)",
    "  --raw             Also print raw literal text",
    "  --no-separators   Reject numeric separators",
    "  --no-hashbang     Treat a leading #! as an error"]

/-- The version text. -/
def versionText : String := unlines ["Quill 0.1.0-alpha.1"]

/-- The dump of a text, with colored reports.  Warnings come before errors, and only
errors make the run fail. -/
def listText (path : String) (options : ListingOptions) (text : String) : Outcome :=
  let listing := tokenize options.settings text
  { status := if listing.hasErrors then 1 else 0
    output := listing.dump path options.showRaw
    errors :=
      Report.drawAll true path text .warning listing.strictDiagnostics.toList ++
        Report.drawAll true path text .error listing.errors.toList }

/-- The outcome of a dump, given what reading the file gives. -/
def listFile (path : String) (options : ListingOptions) (content : Except ReadError String) :
    Outcome :=
  match content with
  | .ok text => listText path options text
  | .error e => { status := 1, errors := unlines [e.message path] }

/-- What the program prints, and its exit status, where `read` tells what reading a
file gives. -/
def Command.run (read : String → Except ReadError String) : Command → Outcome
  | .help => { output := helpText }
  | .version => { output := versionText }
  | .list path options => listFile path options (read path)
  | .listNothing => { status := 1, errors := listHelpText }
  | .badOption error => { status := 1, errors := unlines ["error: " ++ error.message] }
  | .unknown name =>
    { status := 1, output := helpText, errors := unlines ["Unknown command: " ++ name, ""] }

end EcmaLex
