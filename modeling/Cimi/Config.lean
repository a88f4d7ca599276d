import Cimi.CommandLine.Basic
import Cimi.Text.Blank
import Cimi.Text.Decimal
import Cimi.Text.Split
import Cimi.Toml.Reader

/-!
# Configuration

The settings come from a TOML file; the environment overrides the file, and the command line
overrides both.  A file need not be there, unless it was named on the command line.
-/

namespace Cimi

/-- The settings of the program. -/
structure Config where
  host : String
  port : Nat
  baseUrl : String
  /-- How many seconds a request may take. -/
  timeout : Nat
  userAgent : String
  /-- Which lines are logged. -/
  logFilter : String
deriving DecidableEq, Repr

/-- Settings that cannot be used. -/
inductive Unusable where
  | zeroPort
  | emptyBaseUrl
deriving DecidableEq, Repr

/-- The words for settings that cannot be used. -/
def Unusable.message : Unusable → String
  | .zeroPort => "port must be non-zero"
  | .emptyBaseUrl => "base URL must not be empty"

/-- Why there are no settings. -/
inductive ConfigError where
  | malformed
  | unreadable (cause : String)
  | missing (path : String)
  | unusable (u : Unusable)
deriving DecidableEq, Repr

/-- The words for why there are no settings. -/
def ConfigError.message : ConfigError → String
  | .malformed => "failed to parse config file"
  | .unreadable _ => "failed to read config file"
  | .missing path => s!"config file {path} not found"
  | .unusable u => s!"invalid configuration: {u.message}"

/-- What is at a path. -/
inductive FileContent where
  | missing
  | unreadable (cause : String)
  | text (content : String)
deriving DecidableEq, Repr

namespace Config

/-- The file that is read when none is named. -/
def defaultPath : String := "cimi-browser.toml"

/-- The settings that nothing overrides. -/
def default : Config where
  host := "127.0.0.1"
  port := 3000
  baseUrl := "http://localhost/cimi/"
  timeout := 30
  userAgent := "cimi-browser/0.1.0"
  logFilter := "cimi_browser=info,cimi_browser_app=info,tower_http=info"

/-- The filter of a program that logs more. -/
def verboseFilter : String := "cimi_browser=debug,cimi_browser_app=debug,tower_http=debug"

/-- The values of a section by the names of its settings.  A list gives the settings in order, and
a moment gives none. -/
def section? (names : List String) : Option Toml.Value → Option (String → Option Toml.Value)
  | none | some .moment => some fun _ => none
  | some (.table fields) => some fun name => fields.lookup name
  | some (.array items) => some fun name => (names.zip items).lookup name
  | _ => none

/-- A setting that is a text. -/
def text? (default : String) : Option Toml.Value → Option String
  | none => some default
  | some (.string text) => some text
  | _ => none

/-- A setting that is a number of at most so much. -/
def number? (default most : Nat) : Option Toml.Value → Option Nat
  | none => some default
  | some (.integer (.ofNat n)) => if n ≤ most then some n else none
  | _ => none

/-- The greatest port. -/
def maxPort : Nat := 65535

/-- The longest time that is counted. -/
def maxTimeout : Nat := 0xFFFFFFFFFFFFFFFF

/-- The settings in a document. -/
def ofFields? (fields : List (String × Toml.Value)) : Option Config := do
  let server ← section? ["host", "port"] (fields.lookup "server")
  let host ← text? default.host (server "host")
  let port ← number? default.port maxPort (server "port")
  let cimi ← section? ["base_url"] (fields.lookup "cimi")
  let baseUrl ← text? default.baseUrl (cimi "base_url")
  let http ← section? ["timeout_secs", "user_agent"] (fields.lookup "http")
  let timeout ← number? default.timeout maxTimeout (http "timeout_secs")
  let userAgent ← text? default.userAgent (http "user_agent")
  let logging ← section? ["filter"] (fields.lookup "logging")
  let logFilter ← text? default.logFilter (logging "filter")
  return ⟨host, port, baseUrl, timeout, userAgent, logFilter⟩

/-- The settings in a file that need not be there. -/
def ofFile : FileContent → Except ConfigError Config
  | .missing => .ok default
  | .unreadable cause => .error (.unreadable cause)
  | .text content => ((Toml.parse content).bind ofFields?).elim (.error .malformed) .ok

/-- The port that a text names; a plus sign may stand before it. -/
def port? (text : String) : Option Nat :=
  let digits := match text.toList with
    | '+' :: cs => cs
    | cs => cs
  (Text.Decimal.value? digits).filter (· ≤ maxPort)

/-- The settings with another host and port, if a text gives them around its last colon; what is no
port is passed over. -/
def bindTo (c : Config) (text : String) : Config :=
  match Text.cutLast ':' text.toList with
  | some (host, port) =>
    { c with host := String.ofList host, port := (port? (String.ofList port)).getD c.port }
  | none => c

/-- The variables of the environment that hold settings. -/
def variableNames : List String :=
  ["CIMI_BROWSER_HOST", "CIMI_BROWSER_PORT", "CIMI_BROWSER_BIND", "CIMI_BASE_URL",
    "CIMI_BROWSER_LOG", "RUST_LOG"]

/-- The settings under an environment. -/
def withEnvironment (c : Config) (env : String → Option String) : Config :=
  let c := { c with
    host := (env "CIMI_BROWSER_HOST").getD c.host
    port := ((env "CIMI_BROWSER_PORT").bind port?).getD c.port }
  let c := (env "CIMI_BROWSER_BIND").elim c c.bindTo
  { c with
    baseUrl := (env "CIMI_BASE_URL").getD c.baseUrl
    logFilter := ((env "RUST_LOG").or (env "CIMI_BROWSER_LOG")).getD c.logFilter }

/-- The path of the file for the given path, if one was named. -/
def pathOf (named : Option String) : String := named.getD defaultPath

/-- The settings in the file that was named, or in the default one, under an environment. -/
def load (named : Option String) (content : FileContent) (env : String → Option String) :
    Except ConfigError Config :=
  match named, content with
  | some path, .missing => .error (.missing path)
  | _, content => (ofFile content).map (·.withEnvironment env)

/-- The settings under a command line. -/
def withInvocation (c : Config) (i : CommandLine.Invocation) : Config :=
  { c with
    baseUrl := i.baseUrl.getD c.baseUrl
    logFilter := if i.verbose then verboseFilter else c.logFilter }

/-- Refuses settings that cannot be used. -/
def validate (c : Config) : Except ConfigError Unit :=
  if c.port = 0 then .error (.unusable .zeroPort)
  else if (Text.trim c.baseUrl.toList).isEmpty then .error (.unusable .emptyBaseUrl)
  else .ok ()

/-- Where pages are served. -/
def bindAddress (c : Config) : String := s!"{c.host}:{c.port}"

end Config

end Cimi
