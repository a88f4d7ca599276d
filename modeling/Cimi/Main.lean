import Cimi.Program

/-!
# The command line program

Reads the arguments, the environment, the configuration and the standard input, and prints what the
program prints.  There is no network here: to the program every server is out of reach, and nothing
can be served.
-/

namespace Cimi

/-- What is at a path. -/
def readFileContent (path : String) : IO FileContent := do
  try return .text (← IO.FS.readFile path)
  catch
    | .noFileOrDirectory _ _ _ => return .missing
    | e => return .unreadable (toString e)

/-- The values of some variables of the environment. -/
def readEnvironment (names : List String) : IO (String → Option String) := do
  let values ← names.filterMapM fun name => return (← IO.getEnv name).map fun value => (name, value)
  return fun name => values.lookup name

/-- Whether what is printed has colours. -/
def wantsColor : IO Bool := do
  let environment ← readEnvironment Program.colorVariables
  return Program.wantsColor environment (← (← IO.getStdout).isTty)

/-- The bytes of the next line with its end, after those read so far, which stand last one first. -/
partial def readLine (input : IO.FS.Stream) (sofar : List UInt8) : IO (List UInt8) := do
  match (← input.read 1).toList with
  | [] => return sofar.reverse
  | b :: _ => if b = 0x0A then return (b :: sofar).reverse else readLine input (b :: sofar)

/-- Runs an exchange with a client to which every server is out of reach. -/
def offline {α : Type} (client : Http.Client) (e : Exchange α) : IO α :=
  client.run (fun _ => pure none) e

/-- Prints at once. -/
def say (text : String) : IO Unit := do
  let out ← IO.getStdout
  out.putStr text
  out.flush

/-- Prints a report. -/
def complain (r : Report) : IO UInt32 := do
  IO.eprint r.text
  return 1

/-- Ends with an output. -/
def finish (o : Output) : IO UInt32 := do
  say o.printed
  match o.failure with
  | some r => complain r
  | none => return 0

/-- Feeds lines of the standard input to a browser. -/
partial def feedLines (client : Http.Client) (b : Terminal.Browser) : IO UInt32 := do
  if b.awaiting = .nothing then return 0
  let text ← match Text.Lines.split (← readLine (← IO.getStdin) []) with
    | [] => pure (.ok none)
    | line :: _ => pure ((Text.Lines.read line).map some)
  match text with
  | .error e => complain ⟨e.message, []⟩
  | .ok text =>
    let (b, printed) ← offline client (b.feed text)
    say printed
    feedLines client b

/-- Carries out a command.  Lines are read one by one as they are typed. -/
def carryOut (c : Config) (command : CommandLine.Command) : IO UInt32 := do
  let color ← wantsColor
  match Program.task color c [] command, command with
  | .say o, _ => finish o
  | .serve c _, _ => complain ⟨s!"failed to bind {c.bindAddress}", ["there is no network"]⟩
  | .ask client _, .browse location =>
    let (b, l) := Program.connect c.baseUrl location
    let (browser, printed) ← offline client (Terminal.Browser.begin color (.new b l))
    say printed
    feedLines client browser
  | .ask client e, _ => finish (← offline client e)

end Cimi

open Cimi in
/-- Runs the program on the words after its name. -/
def main (words : List String) : IO UInt32 := do
  match CommandLine.read words with
  | .error e => match Program.answer? e with
    | some text => finish ⟨text, none⟩
    | none =>
      IO.eprintln s!"Usage: {CommandLine.Place.top.usage}"
      return 2
  | .ok i =>
    let environment ← readEnvironment Config.variableNames
    let file ← readFileContent (Config.pathOf i.config)
    match Program.settings i file environment with
    | .error r => complain r
    | .ok c => carryOut c i.command
