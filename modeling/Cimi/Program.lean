import Cimi.CommandLine.Help
import Cimi.Config
import Cimi.Filter.Parser
import Cimi.Http.Client
import Cimi.Terminal.Browse

/-!
# The program

The program reads its command line and its settings, and then does what the command says.  It ends
with what it has printed and, if it failed, with a report of the failure and its causes.
-/

namespace Cimi

/-- A failure with its causes, the first one first. -/
structure Report where
  message : String
  causes : List String
deriving DecidableEq, Repr

namespace Report

/-- A text with every line but the first one indented. -/
def indent (margin : String) (cs : List Char) : List Char :=
  cs.flatMap fun c => if c = '\n' then '\n' :: margin.toList else [c]

/-- The lines of the causes; several are numbered. -/
def causeLines : List String → String
  | [] => ""
  | [cause] => "\n\nCaused by:\n    " ++ String.ofList (indent "    " cause.toList)
  | causes => "\n\nCaused by:" ++ String.join (causes.mapIdx fun i cause =>
      s!"\n    {i}: " ++ String.ofList (indent "       " cause.toList))

/-- The text of a report. -/
def text (r : Report) : String := "Error: " ++ r.message ++ causeLines r.causes ++ "\n"

/-- The report of settings that are missing or cannot be used. -/
def ofConfigError (e : ConfigError) : Report :=
  ⟨e.message, match e with
    | .unreadable cause => [cause]
    | _ => []⟩

/-- The report of an expression that is no filter. -/
def ofFilterError (expression : String) (e : Filter.Error) : Report :=
  ⟨s!"invalid filter \x60{expression}\x60", [e.message]⟩

end Report

/-- What the program has printed, and how it failed, if it did. -/
structure Output where
  printed : String
  failure : Option Report
deriving DecidableEq, Repr

namespace Output

/-- Nothing but a failure. -/
def fail (r : Report) : Output := ⟨"", some r⟩

/-- The exit status. -/
def exitStatus (o : Output) : Nat := if o.failure.isSome then 1 else 0

end Output

namespace Program

/-- The base of the server and the location that is shown first.  A URL brings its own base; a
reference is one of the configured server. -/
def connect (baseUrl : String) (location : Option String) : Endpoint × Location :=
  let ofReference (r : String) : Endpoint × Location :=
    (⟨baseUrl⟩, (Location.ofUrl (baseUrl ++ Endpoint.pageName)).withReference ⟨r⟩)
  match location with
  | some text =>
    if Text.contains "://".toList text.toList then
      let l := Location.ofUrl text
      (Endpoint.ofPage l.page, l)
    else ofReference text
  | none => ofReference ""

/-- The client that the settings describe. -/
def client (c : Config) : Except Report Http.Client :=
  (Http.Client.ofUserAgent? c.userAgent).elim
    (.error ⟨"failed to build HTTP client", ["builder error", Http.badHeaderValue]⟩) .ok

/-- Settings that can be used, with the client they describe. -/
def ready (c : Config) : Except Report Http.Client := do
  c.validate.mapError Report.ofConfigError
  client c

/-- The page of a location, under a filter if there is one. -/
def load (b : Endpoint) (l : Location) (filter : Option Filter) : Exchange (Except Error Page) :=
  match filter with
  | some f => Service.loadFiltered b l f .normal
  | none => Service.load b l .normal

/-- Prints a page or its JSON. -/
def show_ (color : Bool) (c : Config) (location : String) (json : Bool) (filter : Option String) :
    Exchange Output := do
  let (b, l) := connect c.baseUrl (some location)
  let parsed := match filter with
    | some expression =>
      ((Filter.parse expression).mapError (Report.ofFilterError expression)).map some
    | none => .ok none
  match parsed with
  | .error r => return .fail r
  | .ok f => match ← load b l f with
    | .error e => return .fail ⟨e.message, []⟩
    | .ok p => return ⟨if json then p.json ++ "\n" else Terminal.screen color p none, none⟩

/-- Browses at the terminal. -/
def browse (color : Bool) (c : Config) (location : Option String) (input : List UInt8) :
    Exchange Output := do
  let (b, l) := connect c.baseUrl location
  let (result, printed) ← Terminal.Browser.browse color (.new b l) input
  match result with
  | .ok () => return ⟨printed, none⟩
  | .error e => return ⟨printed, some ⟨e.message, []⟩⟩

/-- Prints the canonical form of a filter. -/
def filter (expression : String) : Output :=
  match Filter.parse expression with
  | .ok f => ⟨f.canonical ++ "\n", none⟩
  | .error e => .fail (.ofFilterError expression e)

/-- The settings under the arguments of the command that serves. -/
def servedAt (c : Config) (host : Option String) (port : Option Nat) : Config :=
  { c with host := host.getD c.host, port := port.getD c.port }

/-- The variables of the environment that say whether there are colours. -/
def colorVariables : List String := ["CLICOLOR_FORCE", "NO_COLOR", "CLICOLOR"]

/-- Whether what is printed has colours, under an environment: as a rule a terminal has them. -/
def wantsColor (env : String → Option String) (isTerminal : Bool) : Bool :=
  let on (value : Option String) (otherwise : Bool) : Bool := value.elim otherwise (· ≠ "0")
  on (env "CLICOLOR_FORCE") false ||
    ((env "NO_COLOR").isNone && isTerminal && on (env "CLICOLOR") true)

/-- What there is to do for a command. -/
inductive Task where
  /-- All is said. -/
  | say (o : Output)
  /-- The pages are served under the settings. -/
  | serve (c : Config) (client : Http.Client)
  /-- Servers are asked. -/
  | ask (client : Http.Client) (e : Exchange Output)

/-- What a command does under the settings. -/
def task (color : Bool) (c : Config) (input : List UInt8) : CommandLine.Command → Task
  | .filter expression => .say (filter expression)
  | .serve host port =>
    let c := servedAt c host port
    asking c (.serve c)
  | .show location json filter =>
    asking c fun client => .ask client (show_ color c location json filter)
  | .browse location => asking c fun client => .ask client (browse color c location input)
where
  asking (c : Config) (next : Http.Client → Task) : Task :=
    match ready c with
    | .error r => .say (.fail r)
    | .ok client => next client

/-- The text that is printed for a command line that is not carried out, if there is one. -/
def answer? : CommandLine.UsageError → Option String
  | .version => some CommandLine.versionText
  | .help place => some place.helpText
  | _ => none

/-- The settings of a command line, with what is in the file that it names, under an environment. -/
def settings (i : CommandLine.Invocation) (file : FileContent)
    (env : String → Option String) : Except Report Config :=
  ((Config.load i.config file env).mapError Report.ofConfigError).map
    (·.withInvocation i)

end Program

end Cimi
