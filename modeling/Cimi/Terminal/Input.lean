import Cimi.Text.Blank

/-!
# What is typed at a terminal

A line of input is a command, for some commands with the rest of the line as their argument.
-/

namespace Cimi.Terminal

/-- A command. -/
inductive Input where
  | open (reference : String)
  | up
  | root
  | reload
  | view
  | done
  | edit
  | add
  | set (text : String)
  | format
  | save
  | cancel
  | delete
  | run (action : String)
  | help
  | quit
deriving DecidableEq, Repr

/-- A line that is no command. -/
structure UnknownInput where
  line : String
deriving DecidableEq, Repr

/-- The words for a line that is no command. -/
def UnknownInput.message (u : UnknownInput) : String :=
  s!"unknown command \x60{u.line}\x60, try \x60help\x60"

namespace Input

/-- The commands that take no argument, with their names. -/
def plain : List (String × Input) :=
  [("up", .up), ("root", .root), ("reload", .reload), ("view", .view), ("done", .done),
   ("edit", .edit), ("add", .add), ("format", .format), ("save", .save), ("cancel", .cancel),
   ("delete", .delete), ("help", .help), ("?", .help), ("quit", .quit), ("exit", .quit),
   ("q", .quit)]

/-- The first word of a text without blanks at its start, and the rest without blanks around it. -/
def words (cs : List Char) : List Char × List Char :=
  (cs.takeWhile (!Text.isBlank ·), Text.trim (cs.dropWhile (!Text.isBlank ·)))

/-- The command of a word and its argument. -/
def ofWords? (word argument : String) : Option Input :=
  if word = "open" || word = "cd" then some (.open argument)
  else if argument.toList.isEmpty then plain.lookup word
  else if word = "set" then some (.set argument)
  else if word = "run" then some (.run argument)
  else none

/-- The command of a line. -/
def parse (line : String) : Except UnknownInput Input :=
  let trimmed := Text.trim line.toList
  let (word, argument) := words trimmed
  (ofWords? (String.ofList word) (String.ofList argument)).elim
    (.error ⟨String.ofList trimmed⟩) .ok

/-- Whether an answer agrees; anything but a plain yes does not. -/
def isYes (answer : String) : Bool :=
  (Text.trim answer.toList).map Char.toLower ∈ ["y".toList, "yes".toList]

end Input

end Cimi.Terminal
