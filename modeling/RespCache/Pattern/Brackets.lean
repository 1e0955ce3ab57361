import RespCache.Pattern.Atom

/-!
Sets of characters in brackets. A set has members: characters, ranges, classes and sets. Two marks
in a row stand between sets that are intersected or taken from each other.
-/

namespace RespCache.Pattern

def setNames : List String := [
  "alnum", "alpha", "ascii", "blank", "cntrl", "digit", "graph", "lower", "print", "punct",
  "space", "upper", "word", "xdigit"]

/-- Reads on after the bracket before a name between colons, if it is one. The answer says whether
the set is negated. -/
def namedSet? : List Char → Option (Bool × List Char)
  | ':' :: s =>
    let negated := s.head? == some '^'
    let s := if negated then s.tail else s
    match s.dropWhile (· ≠ ':') with
    | _ :: ']' :: rest =>
      if setNames.contains (String.ofList (s.takeWhile (· ≠ ':'))) then some (negated, rest)
      else none
    | _ => none
  | _ => none

def member? (m : Mode) : List Char → Option (Atom × List Char)
  | [] => none
  | '\\' :: s => Atom.ofEscape? m s
  | c :: s => some (.char c false, s)

/-- Reads a member, or a range of characters. A dash at the end of a set, and one before another
dash, makes no range. -/
def range? (m : Mode) (s : List Char) : Option (List Char) := do
  let (low, rest) ← member? m s
  guard (m.supportsInSet low)
  match m.skip rest with
  | '-' :: s =>
    if m.peek? s == some ']' || m.peek? s == some '-' then some ('-' :: s)
    else
      let (high, rest) ← member? m (m.skip s)
      match low, high with
      | .char a _, .char b _ => if m.supportsInSet high ∧ a ≤ b then some rest else none
      | _, _ => none
  | rest => some rest

/-- Reads on after an opening bracket: the mark of negation. All but the ASCII characters of a set
are no text unless all scripts count. -/
def negation? (m : Mode) (s : List Char) : Option (List Char) :=
  match m.skip s with
  | '^' :: s => if m.allScripts then some s else none
  | s => some s

/-- A set of which the closing bracket has not been read. Heights tell how deeply parts are nested:
a member that is no set has none, and a set is higher than what it holds. -/
structure OpenSet where
  /-- nothing but dashes has been read -/
  fresh : Bool := true
  /-- the height of what stands before the operation read last -/
  joined : Option Nat := none
  /-- the number of members since then -/
  count : Nat := 0
  /-- the height of the highest of them -/
  height : Nat := 0

namespace OpenSet

def add (o : OpenSet) (height : Nat) : OpenSet :=
  { o with fresh := false, count := o.count + 1, height := max o.height height }

/-- The height of the members since the last operation, which are one operand. -/
def operand (o : OpenSet) : Nat := if o.count ≤ 1 then o.height else o.height + 1

def total (o : OpenSet) : Nat :=
  match o.joined with
  | none => o.operand
  | some height => max height o.operand + 1

def join (o : OpenSet) : OpenSet := { fresh := false, joined := some o.total }

/-- What becomes of the set and those around it when more is read. -/
inductive Step where
  | more (inner : OpenSet) (outer : List OpenSet) (rest : List Char)
  | closed (height : Nat) (rest : List Char)

/-- Reads one member, operation or bracket. A closing bracket is a member where a set would be empty
without it. -/
def step (m : Mode) (o : OpenSet) (outer : List OpenSet) (s : List Char) : Option Step :=
  match m.skip s with
  | [] => none
  | c :: t =>
    if o.fresh && (c == '-' || c == ']' && o.count == 0) then
      if m.supportsInSet (.char c false) then
        some (.more { o.add 0 with fresh := c == '-' } outer t)
      else none
    else if c = ']' then
      match outer with
      | [] => some (.closed (o.total + 1) t)
      | around :: outer => some (.more (around.add (o.total + 1)) outer t)
    else if c = '[' then
      match namedSet? t with
      | some (negated, rest) =>
        if m.supportsNamed negated then some (.more (o.add 0) outer rest) else none
      | none => (negation? m t).map fun rest => .more {} (o :: outer) rest
    else if ['&', '-', '~'].contains c && t.head? == some c then
      some (.more o.join outer t.tail)
    else (range? m (c :: t)).map fun rest => .more (o.add 0) outer rest

/-- Reads the rest of a set: its height, and what follows it. -/
def finish? (m : Mode) (o : OpenSet) (outer : List OpenSet) (s : List Char) :
    Option (Nat × List Char) :=
  match o.step m outer s with
  | none => none
  | some (.closed height rest) => some (height, rest)
  | some (.more o outer rest) =>
    if rest.length < s.length then finish? m o outer rest else none
termination_by s.length

end OpenSet

/-- Reads a set after its opening bracket: its height, and what follows it. -/
def set? (m : Mode) (s : List Char) : Option (Nat × List Char) := do
  let rest ← negation? m s
  OpenSet.finish? m {} [] rest

end RespCache.Pattern
