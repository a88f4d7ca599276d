import Cimi.CommandLine.Basic
import Cimi.Text.Decimal
import Cimi.Text.Split

/-!
# Reading command lines

Words are read from left to right, first those before the command, then those of the command.  A
word that begins with a hyphen names options; an option with a value has it in the same word or in
the next one.  A value is looked at when the next argument begins, or at the end, so a fault of a
later word can come first only if that word is not known at all.  After `--` there are no options.
-/

namespace Cimi.CommandLine

/-- An option that takes no value. -/
inductive Flag where
  | verbose
  | json
  | help
  | version
deriving DecidableEq, Repr

/-- An option that takes a value. -/
inductive Setting where
  | config
  | baseUrl
  | host
  | port
  | filter
deriving DecidableEq, Repr

/-- An option. -/
inductive Opt where
  | flag (f : Flag)
  | setting (s : Setting)
deriving DecidableEq, Repr

/-- Where a word stands: before the command, or among the words of a command. -/
inductive Place where
  | top
  | serve
  | show
  | browse
  | filter
deriving DecidableEq, Repr

/-- Why a command line is not understood, or is answered by a text of its own. -/
inductive UsageError where
  | unknownArgument
  | unknownCommand
  | missingArgument
  | missingCommand
  /-- A value is missing or empty. -/
  | noValue
  | badValue
  | repeated
  | unexpectedValue
  /-- The help for a place is asked for. -/
  | help (p : Place)
  /-- Nothing at all was said. -/
  | helpInstead
  | version
deriving DecidableEq, Repr

namespace Place

/-- The commands by their names. -/
def ofName? : String → Option Place
  | "serve" => some .serve
  | "show" => some .show
  | "browse" => some .browse
  | "filter" => some .filter
  | _ => none

/-- The options known everywhere, by their long names. -/
def everywhere : List (String × Opt) :=
  [("config", .setting .config), ("base-url", .setting .baseUrl), ("verbose", .flag .verbose),
    ("help", .flag .help)]

/-- The options known at a place, by their long names. -/
def longNames : Place → List (String × Opt)
  | .top => ("version", .flag .version) :: everywhere
  | .serve => ("host", .setting .host) :: ("port", .setting .port) :: everywhere
  | .show => ("json", .flag .json) :: ("filter", .setting .filter) :: everywhere
  | .browse | .filter => everywhere

/-- The options known at a place, by their letters. -/
def letters (p : Place) : List (Char × Opt) :=
  [('c', .setting .config), ('v', .flag .verbose), ('h', .flag .help)] ++
    match p with
    | .top => [('V', .flag .version)]
    | .serve => [('p', .setting .port)]
    | _ => []

/-- Whether a place takes an argument that is no option. -/
def takesArgument : Place → Bool
  | .top | .serve => false
  | _ => true

end Place

/-- What has been read at a place. -/
structure Seen where
  flags : List Flag
  settings : List (Setting × String)
  argument : Option String
  /-- An option whose value has not been looked at; it may still be missing. -/
  pending : Option (Setting × Option String)
deriving DecidableEq, Repr

/-- Nothing has been read. -/
def Seen.nothing : Seen := ⟨[], [], none, none⟩

/-- The whole number that a text names, with or without a sign. -/
def integer? (text : String) : Option Int :=
  match text.toList with
  | '-' :: cs => (Text.Decimal.value? cs).map fun n => -Int.ofNat n
  | '+' :: cs => (Text.Decimal.value? cs).map Int.ofNat
  | cs => (Text.Decimal.value? cs).map Int.ofNat

/-- The port that a value names. -/
def portValue? (text : String) : Option Nat :=
  match integer? text with
  | some n => if 0 ≤ n ∧ n ≤ 65535 then some n.toNat else none
  | none => none

/-- Looks at a value. -/
def Setting.check (s : Setting) (value : String) : Except UsageError Unit :=
  match s with
  | .config => if value.toList.isEmpty then .error .noValue else .ok ()
  | .port => if (portValue? value).isSome then .ok () else .error .badValue
  | _ => .ok ()

namespace Seen

/-- Looks at the value of the pending option. -/
def settle (s : Seen) : Except UsageError Seen :=
  match s.pending with
  | none => .ok s
  | some (_, none) => .error .noValue
  | some (setting, some value) =>
    if (s.settings.lookup setting).isSome then .error .repeated
    else (setting.check value).map fun _ =>
      { s with settings := (setting, value) :: s.settings, pending := none }

/-- Takes an option without a value. -/
def flag (s : Seen) (p : Place) (f : Flag) : Except UsageError Seen := do
  let s ← s.settle
  match f with
  | .help => throw (.help p)
  | .version => throw .version
  | f => if f ∈ s.flags then throw .repeated else return { s with flags := f :: s.flags }

/-- Takes an option with a value in the same word. -/
def attached (s : Seen) (setting : Setting) (value : String) : Except UsageError Seen := do
  let s ← s.settle
  Seen.settle { s with pending := some (setting, some value) }

/-- Takes an option whose value is the next word. -/
def awaiting (s : Seen) (setting : Setting) : Except UsageError Seen := do
  let s ← s.settle
  return { s with pending := some (setting, none) }

/-- Takes the value of the pending option. -/
def value (s : Seen) (text : String) : Seen :=
  { s with pending := s.pending.map fun (setting, _) => (setting, some text) }

/-- Whether the next word is a value, whatever it is, unless it names options. -/
def isOpen (s : Seen) : Bool := s.pending.any (·.2.isNone)

/-- Takes a word that begins with two hyphens. -/
def long (s : Seen) (p : Place) (word : List Char) : Except UsageError Seen :=
  let (name, value) := match Text.cutFirst '=' word with
    | some (name, value) => (name, some (String.ofList value))
    | none => (word, none)
  match p.longNames.lookup (String.ofList name), value with
  | none, _ => .error .unknownArgument
  | some (.flag _), some _ => .error .unexpectedValue
  | some (.flag f), none => s.flag p f
  | some (.setting setting), some value => s.attached setting value
  | some (.setting setting), none => s.awaiting setting

/-- Takes the letters after one hyphen; the rest of the word is the value of a letter that has
one. -/
def short (p : Place) : (s : Seen) → List Char → Except UsageError Seen
  | s, [] => .ok s
  | s, c :: cs =>
    match p.letters.lookup c with
    | none => .error .unknownArgument
    | some (.flag f) => do short p (← s.flag p f) cs
    | some (.setting setting) =>
      match cs with
      | [] => s.awaiting setting
      | '=' :: value => s.attached setting (String.ofList value)
      | value => s.attached setting (String.ofList value)

/-- Takes a word that is no option. -/
def word (s : Seen) (p : Place) (text : String) : Except UsageError Seen :=
  if p.takesArgument && s.argument.isNone then do
    return { (← s.settle) with argument := some text }
  else .error (if p = .top then .unknownCommand else .unknownArgument)

/-- Takes a word before any `--`. -/
def take (s : Seen) (p : Place) (text : String) : Except UsageError Seen :=
  match text.toList with
  | '-' :: '-' :: cs => s.long p cs
  | '-' :: c :: cs => short p s (c :: cs)
  | _ => if s.isOpen then .ok (s.value text) else s.word p text

/-- Takes words after `--`. -/
def takeRest (p : Place) : (s : Seen) → List String → Except UsageError Seen
  | s, [] => s.settle
  | s, text :: words =>
    if p = .top && (Place.ofName? text).isSome || p = .top && text = "help" then
      .error .unknownArgument
    else do takeRest p (← s.word p text) words

/-- Takes the words of a command. -/
def takeAll (p : Place) : (s : Seen) → List String → Except UsageError Seen
  | s, [] => s.settle
  | s, text :: words =>
    if text = "--" then takeRest p s words else do takeAll p (← s.take p text) words

/-- The value of an option. -/
def setting? (s : Seen) (setting : Setting) : Option String := s.settings.lookup setting

end Seen

/-- The command of a place with what was read there. -/
def command (p : Place) (s : Seen) : Except UsageError Command :=
  match p, s.argument with
  | .top, _ => .error .missingCommand
  | .serve, _ => .ok (.serve (s.setting? .host) ((s.setting? .port).bind portValue?))
  | .show, some location => .ok (.show location (.json ∈ s.flags) (s.setting? .filter))
  | .browse, location => .ok (.browse location)
  | .filter, some expression => .ok (.filter expression)
  | .show, none | .filter, none => .error .missingArgument

/-- The command line of a command and of the words before and after its name; what is said after it
counts, if it is said twice. -/
def invocation (p : Place) (before after : Seen) : Except UsageError Invocation := do
  let c ← command p after
  let before ← before.settle
  let setting (s : Setting) := (after.setting? s).or (before.setting? s)
  return ⟨c, .verbose ∈ after.flags || .verbose ∈ before.flags, setting .baseUrl, setting .config⟩

/-- What is answered to a line that has no command. -/
def withoutCommand (s : Seen) : UsageError :=
  if s.flags.isEmpty && s.settings.isEmpty then .helpInstead else .missingCommand

/-- The answer to `help` and the words after it, which have to name a command. -/
def helpFor : List String → UsageError
  | [] => .help .top
  | [name] =>
    if name = "help" then .help .top
    else (Place.ofName? name).elim .unknownCommand .help
  | _ => .unknownCommand

/-- Reads words of which the ones so far stood before the command. -/
def readFrom : (s : Seen) → List String → Except UsageError Invocation
  | s, [] => do throw (withoutCommand (← s.settle))
  | s, text :: words =>
    if !s.isOpen && text = "help" then .error (helpFor words)
    else match if s.isOpen then none else Place.ofName? text with
      | some p => do invocation p s (← Seen.takeAll p .nothing words)
      | none =>
        if text = "--" then do throw (withoutCommand (← Seen.takeRest .top s words))
        else do readFrom (← s.take .top text) words

/-- Reads the words after the name of the program. -/
def read (words : List String) : Except UsageError Invocation := readFrom .nothing words

end Cimi.CommandLine
