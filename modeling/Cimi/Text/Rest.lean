/-!
# What is left to read

A text is read from its start.  What a step leaves is no longer than what it was given, or shorter,
and with that a reading comes to an end.
-/

namespace Cimi.Text

/-- What is left of a text after at least one character of it. -/
abbrev Shorter (cs : List Char) := { rest : List Char // rest.length < cs.length }

/-- What is left of a text after any part of it. -/
abbrev Suffix (cs : List Char) := { rest : List Char // rest.length ≤ cs.length }

variable {cs : List Char}

namespace Shorter

/-- All but the first character is left. -/
def tail (c : Char) (cs : List Char) : Shorter (c :: cs) := ⟨cs, Nat.lt_succ_self _⟩

/-- What is left of a text is left of a longer one. -/
def cons (c : Char) (rest : Shorter cs) : Shorter (c :: cs) := ⟨rest.1, Nat.lt_succ_of_lt rest.2⟩

/-- What is left after the first character, or less. -/
def uncons {c : Char} (rest : Shorter (c :: cs)) : Suffix cs := ⟨rest.1, Nat.le_of_lt_succ rest.2⟩

/-- Something has been read, or nothing. -/
def suffix (rest : Shorter cs) : Suffix cs := ⟨rest.1, Nat.le_of_lt rest.2⟩

/-- What is left of what is left. -/
def trans (rest : Shorter cs) (left : Shorter rest.1) : Shorter cs :=
  ⟨left.1, Nat.lt_trans left.2 rest.2⟩

/-- What is left of what is left, if nothing more may have been read. -/
def transSuffix (rest : Shorter cs) (left : Suffix rest.1) : Shorter cs :=
  ⟨left.1, Nat.lt_of_le_of_lt left.2 rest.2⟩

end Shorter

namespace Suffix

/-- All is left. -/
def all (cs : List Char) : Suffix cs := ⟨cs, Nat.le_refl _⟩

/-- What is left of a text is shorter than a longer one. -/
def cons (c : Char) (rest : Suffix cs) : Shorter (c :: cs) := ⟨rest.1, Nat.lt_succ_of_le rest.2⟩

/-- What is left of what is left. -/
def trans (rest : Suffix cs) (left : Suffix rest.1) : Suffix cs :=
  ⟨left.1, Nat.le_trans left.2 rest.2⟩

/-- What is left of what is left, if something more has been read. -/
def transShorter (rest : Suffix cs) (left : Shorter rest.1) : Shorter cs :=
  ⟨left.1, Nat.lt_of_lt_of_le left.2 rest.2⟩

end Suffix

end Cimi.Text
