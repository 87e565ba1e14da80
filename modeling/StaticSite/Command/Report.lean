import StaticSite.Command.Run
import StaticSite.Number.Basic

/-!
# What a command reports

The lines that a command leaves behind on the terminal, each with its label: what was done, or why
it was not.
-/

namespace StaticSite.Command

/-- The version of the program. -/
def versionText : String := "vela 0.3.1\n"

/-- The help text. -/
def helpText : String :=
  "static site generator for single-file components\n\n" ++
  "Usage: vela [OPTIONS] <COMMAND>\n\n" ++
  "Commands:\n" ++
  "  init [NAME]  Create a starter site\n" ++
  "  generate     Render every page into the output directory\n" ++
  "  dev          Build, serve the output, rebuild on change\n" ++
  "  help         Print this message\n\n" ++
  "Options:\n" ++
  "  -r, --root <ROOT>      Project root directory\n" ++
  "  -o, --output <OUTPUT>  Output directory, relative to the project root\n" ++
  "  -C, --config <CONFIG>  Settings file [default: " ++ settingsName.text ++ "]\n" ++
  "  -h, --help             Print help\n" ++
  "  -V, --version          Print version\n"

namespace UsageError

/-- Whether a text was asked for, so that nothing went wrong. -/
def isQuestion : UsageError → Bool
  | .help => true
  | .version => true
  | _ => false

/-- The wording of an answer to a command line. -/
def message : UsageError → String
  | .help => helpText
  | .version => versionText
  | .nothing => helpText
  | .noCommand => "error: a command is missing\n"
  | .unknownCommand => "error: there is no such command\n"
  | .unknownArgument => "error: unexpected argument\n"
  | .badValue => "error: a value is missing or not possible\n"
  | .badNumber => "error: a number is expected\n"
  | .givenTwice => "error: an option is given twice\n"
  | .unwantedValue => "error: an option has no value\n"

end UsageError

/-- An error with all its causes. -/
def buildMessage (e : BuildError) : String := ": ".intercalate (e.display :: e.causes)

namespace Failure

/-- The wording of a failure. -/
def message : Failure → String
  | .usage e => e.message
  | .settings e => e.display
  | .scaffold e => e.display
  | .build e => buildMessage e

end Failure

/-- A line of output: its label and its message. -/
abbrev Line := String × String

/-- What is reported about a build that took some milliseconds. -/
def buildLines (pages : Path) (s : BuildSummary) (elapsed : Nat) : List Line :=
  let number (n : Nat) := String.ofList (Number.intText n)
  let warning : List Line :=
    if s.pages = 0 then [("warn", "no pages under \x60" ++ pages.text ++ "\x60")] else []
  warning ++ [("build",
    number s.pages ++ " pages, " ++ number s.components ++ " components, " ++
      number s.assets ++ " assets in " ++ number elapsed ++ " ms")]

namespace Done

/-- What is reported when a command has done its work in some milliseconds. -/
def lines (elapsed : Nat) : Done → List Line
  | .started root => [("init", "created site at " ++ root.text)]
  | .built pages summary => buildLines pages summary elapsed
  | .serving _ => []

end Done

end StaticSite.Command
