/-!
# Command lines

A command line is a command with its own arguments, and options that may stand before or after the
command.
-/

namespace Cimi.CommandLine

/-- What the program is told to do. -/
inductive Command where
  /-- Serve the pages of the web. -/
  | serve (host : Option String) (port : Option Nat)
  /-- Print one page, or its JSON. -/
  | show (location : String) (json : Bool) (filter : Option String)
  /-- Browse at the terminal. -/
  | browse (location : Option String)
  /-- Print the canonical form of a filter. -/
  | filter (expression : String)
deriving DecidableEq, Repr

/-- A command line that is understood. -/
structure Invocation where
  command : Command
  verbose : Bool
  baseUrl : Option String
  /-- The path of the configuration. -/
  config : Option String
deriving DecidableEq, Repr

end Cimi.CommandLine
