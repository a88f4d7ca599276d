import Cimi.Filter.Lexer

/-!
# Reading a filter

The tokens are read from the left with a stack of the groups that are still open: the whole text,
and one for each open parenthesis.  A group keeps what has been joined in it so far.  `term` reads
what begins a term, `afterTerm` puts a finished term into its group; each call takes at least one
token off the list, so the reading ends.
-/

namespace Cimi.Filter

/-- The greatest integer of a literal. -/
def maxInt : Nat := 0x7FFFFFFFFFFFFFFF

/-- What is left of a list of tokens after at least one of them. -/
abbrev Remaining (ts : List Lexeme) := { rest : List Lexeme // rest.length < ts.length }

/-- The value of an integer token. -/
def intOfDigits (digits : String) : Except Error Nat :=
  let n := Text.Decimal.value digits.toList
  if n ≤ maxInt then .ok n else .error (.integerOutOfRange digits)

/-- The instant of a date token. -/
def instantOfText (text : String) : Except Error Instant :=
  (Instant.ofText text.toList).mapError (.invalidDate text)

/-- What follows an opening bracket. -/
def bracket? : (ts : List Lexeme) → Option (Remaining ts)
  | ⟨_, _, .openBracket⟩ :: rest => some ⟨rest, Nat.lt_succ_self _⟩
  | _ => none

/-- The key of a property with its closing bracket, after the opening one. -/
def propertyKey (ts : List Lexeme) : Except Error (String × Remaining ts) :=
  match ts with
  | ⟨_, _, .string key⟩ :: ⟨_, _, .closeBracket⟩ :: rest =>
    .ok (key, ⟨rest, Nat.lt_succ_of_lt (Nat.lt_succ_self _)⟩)
  | ⟨_, _, .string _⟩ :: rest => .error (.unexpected .closeBracket rest)
  | ts => .error (.unexpected .propertyKey ts)

/-- One side of a comparison.  The word `property` before a bracket is never an attribute's name,
and neither are `and` and `or`. -/
def operand (ts : List Lexeme) : Except Error (Operand × Remaining ts) :=
  match ts with
  | [] => .error (.unexpected .operand [])
  | t :: rest =>
    let done (o : Operand) : Operand × Remaining (t :: rest) := (o, ⟨rest, Nat.lt_succ_self _⟩)
    match t.token with
    | .int digits => (intOfDigits digits).map fun n => done (.literal (.int n))
    | .string s => .ok (done (.literal (.string s)))
    | .date text => (instantOfText text).map fun i => done (.literal (.date text i))
    | .word name =>
      if name = "true" then .ok (done (.literal (.bool true)))
      else if name = "false" then .ok (done (.literal (.bool false)))
      else if name = "and" || name = "or" then .error (.unexpected .operand (t :: rest))
      else match if name = "property" then bracket? rest else none with
        | none => .ok (done (.attribute (.name name)))
        | some inside => (propertyKey inside.1).map fun (key, left) =>
          (.attribute (.property key), ⟨left.1, by
            have := left.2; have := inside.2; simp only [List.length_cons]; omega⟩)
    | _ => .error (.unexpected .operand (t :: rest))

/-- The operator of a comparison. -/
def operator (ts : List Lexeme) : Except Error (Op × Remaining ts) :=
  match ts with
  | ⟨_, _, .op o⟩ :: rest => .ok (o, ⟨rest, Nat.lt_succ_self _⟩)
  | ts => .error (.unexpected .operator ts)

/-- Whether exactly one side of a comparison is an attribute. -/
def Comparison.isMixed (c : Comparison) : Bool :=
  match c.left, c.right with
  | .attribute _, .literal _ | .literal _, .attribute _ => true
  | _, _ => false

/-- A comparison. -/
def comparison? (ts : List Lexeme) : Except Error (Comparison × Remaining ts) := do
  let (left, r₁) ← operand ts
  let (op, r₂) ← operator r₁.1
  let (right, r₃) ← operand r₂.1
  let c : Comparison := ⟨left, op, right⟩
  if c.isMixed then
    return (c, ⟨r₃.1, Nat.lt_trans r₃.2 (Nat.lt_trans r₂.2 r₁.2)⟩)
  else throw (.noSingleAttribute ((ts.head?.map (·.start)).getD 0))

/-- What has been read of a group: what stands before its last `or`, and what stands between that
and its last `and`. -/
structure Group where
  alternatives : Option Filter
  conjuncts : Option Filter
deriving DecidableEq, Repr

namespace Group

/-- A group of which nothing has been read. -/
def empty : Group := ⟨none, none⟩

/-- The conjunction that ends with a term. -/
def conjunction (g : Group) (f : Filter) : Filter := g.conjuncts.elim f (.and · f)

/-- The whole group, if it ends with a term. -/
def filter (g : Group) (f : Filter) : Filter :=
  g.alternatives.elim (g.conjunction f) (.or · (g.conjunction f))

/-- The group after a term and an `and`. -/
def and (g : Group) (f : Filter) : Group := { g with conjuncts := some (g.conjunction f) }

/-- The group after a term and an `or`. -/
def or (g : Group) (f : Filter) : Group := ⟨some (g.filter f), none⟩

end Group

mutual

/-- Reads a term of group `g`, which stands inside the groups `outer`, and all that follows. -/
def term (outer : List Group) (g : Group) (ts : List Lexeme) : Except Error Filter :=
  match ts with
  | ⟨_, _, .openParen⟩ :: rest => term (g :: outer) .empty rest
  | ts =>
    match comparison? ts with
    | .error e => .error e
    | .ok (c, ⟨rest, _⟩) => afterTerm outer g (.comparison c) rest
termination_by ts.length

/-- Goes on after the term `f` of group `g`. -/
def afterTerm (outer : List Group) (g : Group) (f : Filter) (ts : List Lexeme) :
    Except Error Filter :=
  match ts with
  | ⟨_, _, .word "and"⟩ :: rest => term outer (g.and f) rest
  | ⟨_, _, .word "or"⟩ :: rest => term outer (g.or f) rest
  | ts =>
    match outer, ts with
    | [], [] => .ok (g.filter f)
    | [], t :: rest => .error (.unexpected .endOfInput (t :: rest))
    | g' :: outer, ⟨_, _, .closeParen⟩ :: rest => afterTerm outer g' (g.filter f) rest
    | _ :: _, ts => .error (.unexpected .closeParen ts)
termination_by ts.length

end

/-- The filter that a list of tokens spells. -/
def ofLexemes (ts : List Lexeme) : Except Error Filter := term [] .empty ts

/-- The filter that a text spells. -/
def parse (text : String) : Except Error Filter := do ofLexemes (← lex text)

/-- Reads a text that is one token and nothing else. -/
def single {α : Type} (expected : Expected) (convert : Token → Option (Except Error α))
    (text : String) : Except Error α := do
  match ← lex text with
  | [] => throw (.unexpectedEnd expected)
  | t :: rest =>
    let value ← (convert t.token).getD (.error (.unexpected expected (t :: rest)))
    if rest.isEmpty then return value else throw (.unexpected .endOfInput rest)

/-- The integer that a text spells. -/
def parseInt (text : String) : Except Error Nat :=
  single .integer (fun | .int digits => some (intOfDigits digits) | _ => none) text

/-- The truth value that a text spells. -/
def parseBool (text : String) : Except Error Bool :=
  single .boolean (fun
    | .word "true" => some (.ok true)
    | .word "false" => some (.ok false)
    | _ => none) text

/-- The string that a text spells. -/
def parseString (text : String) : Except Error String :=
  single .string (fun | .string s => some (.ok s) | _ => none) text

/-- The instant that a text spells. -/
def parseDate (text : String) : Except Error Instant :=
  single .date (fun
    | .date text => some (instantOfText text)
    | .int digits => some (.error (.invalidDate digits .expectedDate))
    | _ => none) text

end Cimi.Filter
