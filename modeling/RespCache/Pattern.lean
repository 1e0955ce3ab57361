import RespCache.Pattern.Brackets
import RespCache.Text.Alphanumeric

/-!
Patterns that texts are matched with. `Pattern.isValid` says which texts are patterns that can be
matched: groups and sets are closed, what is repeated is there, every part is supported in the mode
that it stands in, and nothing is nested too deeply.
-/

namespace RespCache.Pattern

def maxHeight : Nat := 250

/-- A group of which the end has not been read: branches with bars between them, each a sequence of
parts. A single part is as high as it is, several in a row or in branches are higher by one. -/
structure OpenGroup where
  /-- the mode around the group -/
  outside : Mode := {}
  /-- the number of branches before the last bar -/
  branches : Nat := 0
  /-- the height of the highest of them -/
  branchHeight : Nat := 0
  /-- the number of parts since then -/
  count : Nat := 0
  /-- the height of the highest of them -/
  height : Nat := 0
  /-- the height of the last part, if it may be repeated -/
  last : Option Nat := none

namespace OpenGroup

def add (g : OpenGroup) (height : Nat) : OpenGroup :=
  { g with count := g.count + 1, height := max g.height height, last := some height }

/-- Takes in a change of modes, which is a part that cannot be repeated. -/
def addChange (g : OpenGroup) : OpenGroup := { g with count := g.count + 1, last := none }

def repeatLast? (g : OpenGroup) : Option OpenGroup :=
  g.last.map fun height =>
    { g with height := max g.height (height + 1), last := some (height + 1) }

def branch (g : OpenGroup) : Nat := if g.count ≤ 1 then g.height else g.height + 1

def bar (g : OpenGroup) : OpenGroup :=
  { outside := g.outside, branches := g.branches + 1, branchHeight := max g.branchHeight g.branch }

def total (g : OpenGroup) : Nat :=
  if g.branches = 0 then g.branch else max g.branchHeight g.branch + 1

end OpenGroup

/-- What is known of a pattern when a part of it has been read. -/
structure Progress where
  mode : Mode := {}
  /-- the names that groups have -/
  names : List (List Char) := []
  inner : OpenGroup := {}
  outer : List OpenGroup := []

namespace Progress

def isName : List Char → Bool
  | [] => false
  | c :: s =>
    (c == '_' || Text.alphabetic c) &&
      s.all fun c => ['_', '.', '[', ']'].contains c || Text.alphanumeric c

def add (p : Progress) (height : Nat) : Progress := { p with inner := p.inner.add height }

def enter (p : Progress) (mode : Mode) : Progress :=
  { p with mode, inner := { outside := p.mode }, outer := p.inner :: p.outer }

/-- Ends a group, and with it what was said of modes in it. -/
def leave? (p : Progress) : Option Progress :=
  match p.outer with
  | [] => none
  | around :: outer =>
    some { p with mode := p.inner.outside, inner := around.add (p.inner.total + 1), outer }

/-- Reads on after the angle bracket before a group's name. -/
def named? (p : Progress) (s : List Char) : Option (Progress × List Char) :=
  let name := s.takeWhile (· ≠ '>')
  match s.dropWhile (· ≠ '>') with
  | [] => none
  | _ :: rest =>
    if isName name && !p.names.contains name then
      some ({ p.enter p.mode with names := name :: p.names }, rest)
    else none

/-- Reads letters that switch modes: for a group after a colon, or for the rest of the group that
they stand in. -/
def changed? (p : Progress) (s : List Char) : Option (Progress × List Char) :=
  let letters := s.takeWhile fun c => c ≠ ':' && c ≠ ')'
  let mode := p.mode.change letters
  if ¬ Mode.isChange letters then none
  else match s.dropWhile fun c => c ≠ ':' && c ≠ ')' with
    | [] => none
    | ':' :: rest => some (p.enter mode, rest)
    | _ :: rest =>
      if letters.isEmpty then none else some ({ p with mode, inner := p.inner.addChange }, rest)

def group? (p : Progress) (s : List Char) : Option (Progress × List Char) :=
  match p.mode.skip s with
  | '?' :: 'P' :: '<' :: rest => p.named? rest
  | '?' :: '<' :: rest => p.named? rest
  | '?' :: rest => p.changed? rest
  | rest => some (p.enter p.mode, rest)

def atom? (p : Progress) (a : Atom) (rest : List Char) : Option (Progress × List Char) :=
  if p.mode.supports a then some (p.add 0, rest) else none

/-- Reads on after a character. A question mark after the mark of a repetition belongs to it. -/
def step? (p : Progress) (c : Char) (s : List Char) : Option (Progress × List Char) :=
  match c with
  | '(' => p.group? s
  | ')' => p.leave?.map fun p => (p, s)
  | '|' => some ({ p with inner := p.inner.bar }, s)
  | '[' => (set? p.mode s).map fun (height, rest) => (p.add height, rest)
  | '\x7b' => none
  | '?' | '*' | '+' =>
    p.inner.repeatLast?.map fun inner => ({ p with inner }, if s.head? = '?' then s.tail else s)
  | '\\' => (Atom.ofEscape? p.mode s).bind fun (a, rest) => p.atom? a rest
  | '.' => p.atom? .any s
  | '^' | '$' => p.atom? .edge s
  | c => p.atom? (.char c false) s

/-- Whether the rest makes a pattern of what has been read. -/
def completes (p : Progress) (s : List Char) : Bool :=
  match p.mode.skip s with
  | [] => p.outer.isEmpty && p.inner.total ≤ maxHeight
  | c :: t =>
    match p.step? c t with
    | none => false
    | some (p, rest) => if rest.length < s.length then completes p rest else false
termination_by s.length

end Progress

/-- Whether a text is a pattern that can be matched. -/
def isValid (s : List Char) : Bool := Progress.completes {} s

end RespCache.Pattern
