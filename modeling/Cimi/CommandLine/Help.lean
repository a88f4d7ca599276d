import Cimi.CommandLine.Reader
import Cimi.Text.Split

/-!
# Help

What is printed when help or the version is asked for: what a command does, its usage, its
arguments and its options.
-/

namespace Cimi.CommandLine

/-- The name of the program. -/
def programName : String := "cimi-browser"

/-- The version of the program. -/
def version : String := "0.1.0"

/-- What is printed for the version. -/
def versionText : String := s!"{programName} {version}\n"

/-- An entry of a list: what it is about, and the words for it. -/
structure Entry where
  subject : String
  words : String

/-- The entries of a list, their words in one column. -/
def entriesText (es : List Entry) : String :=
  let width := es.foldl (fun w e => max w e.subject.length) 0
  String.join (es.map fun e =>
    "  " ++ e.subject ++ String.ofList (List.replicate (width - e.subject.length + 2) ' ') ++
      e.words ++ "\n")

/-- A list under its title. -/
def listText (title : String) (es : List Entry) : String :=
  if es.isEmpty then "" else "\n" ++ title ++ ":\n" ++ entriesText es

namespace Place

/-- What a command does. -/
def about : Place → String
  | .top => "Browse and edit the resources of a CIMI server"
  | .serve => "Serve the browser as a web application"
  | .show => "Render one resource and exit"
  | .browse => "Browse interactively in the terminal"
  | .filter => "Check a \x60$filter\x60 expression and print its canonical form"

/-- The name of a command. -/
def name : Place → String
  | .top => ""
  | .serve => "serve"
  | .show => "show"
  | .browse => "browse"
  | .filter => "filter"

/-- How a command is used. -/
def usage : Place → String
  | .top => "cimi-browser [OPTIONS] <COMMAND>"
  | .serve => "cimi-browser serve [OPTIONS]"
  | .show => "cimi-browser show [OPTIONS] <LOCATION>"
  | .browse => "cimi-browser browse [OPTIONS] [LOCATION]"
  | .filter => "cimi-browser filter [OPTIONS] <EXPRESSION>"

/-- The commands. -/
def commandEntries : Place → List Entry
  | .top => ([Place.serve, .show, .browse, .filter].map fun p => ⟨p.name, p.about⟩) ++
      [⟨"help", "Print this message or the help of the given subcommand(s)"⟩]
  | _ => []

/-- The arguments of a command. -/
def argumentEntries : Place → List Entry
  | .top | .serve => []
  | .show => [⟨"<LOCATION>", String.join [
      "A page URL (\x60http://host/cimi/webui#MachineCollection\x60) or a bare reference ",
      "(\x60MachineCollection\x60)"]⟩]
  | .browse => [⟨"[LOCATION]", "Where to start; the entry point when omitted"⟩]
  | .filter => [⟨"<EXPRESSION>", "The expression, e.g. \x60name='web' and cpu>2\x60"⟩]

/-- The options of a command that nothing else has, before and after the address of the server. -/
def ownEntries : Place → List Entry × List Entry
  | .serve => ([⟨"    --host <HOST>", "Address to bind to"⟩], [⟨"-p, --port <PORT>", "TCP port"⟩])
  | .show => ([⟨"    --json", "Print the document as JSON instead of rendering it"⟩],
      [⟨"    --filter <FILTER>", "\x60$filter\x60 expression applied to a collection"⟩])
  | _ => ([], [])

/-- The options of a command. -/
def optionEntries (p : Place) : List Entry :=
  [⟨"-c, --config <CONFIG>",
      "Configuration file (defaults to \x60cimi-browser.toml\x60 when present)"⟩] ++
    p.ownEntries.1 ++
    [⟨"    --base-url <BASE_URL>",
      "Base endpoint of the CIMI server, e.g. \x60http://localhost/cimi/\x60"⟩] ++
    p.ownEntries.2 ++
    [⟨"-v, --verbose", "Log at debug level"⟩, ⟨"-h, --help", "Print help"⟩] ++
    if p = .top then [⟨"-V, --version", "Print version"⟩] else []

/-- The help for a command. -/
def helpText (p : Place) : String :=
  p.about ++ "\n\nUsage: " ++ p.usage ++ "\n" ++ listText "Commands" p.commandEntries ++
    listText "Arguments" p.argumentEntries ++ listText "Options" p.optionEntries

end Place

end Cimi.CommandLine
