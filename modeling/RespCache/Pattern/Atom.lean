import RespCache.Text.Blank
import RespCache.Text.Digits

/-!
The smallest parts of a pattern, and what of them can be matched. Classes of characters and pairs of
cases are known for ASCII alone. So a part that stands for a class of all scripts, or for both cases
of a letter of any script, cannot be matched, and neither can one that stands for bytes that are no
text.

Nothing is written in braces: what a pattern is taken from ends at the first closing one.
-/

namespace RespCache.Pattern

/-- How a pattern is read, and what its parts stand for. -/
structure Mode where
  /-- letters stand for both of their cases -/
  ignoreCase : Bool := false
  /-- parts stand for characters of all scripts, and not for bytes -/
  allScripts : Bool := true
  /-- blanks count for nothing, and neither do notes from a `#` to the end of the line -/
  spaced : Bool := false

namespace Mode

/-- What is left after blanks and notes; `inNote` says whether the text begins inside a note. -/
def dropSpace (inNote : Bool) : List Char → List Char
  | [] => []
  | c :: s =>
    if inNote then dropSpace (c ≠ '\n') s
    else if Text.isBlank c then dropSpace false s
    else if c = '#' then dropSpace true s
    else c :: s

def skip (m : Mode) (s : List Char) : List Char := if m.spaced then dropSpace false s else s

/-- The character that comes next, blanks and the mark of a note left out. The text of a note is
not, and blanks count if nothing comes after them. -/
def peek? (m : Mode) (s : List Char) : Option Char :=
  if m.spaced then
    let ahead :=
      match s.dropWhile Text.isBlank with
      | '#' :: note => note.dropWhile Text.isBlank
      | text => text
    ahead.head? <|> s.head?
  else s.head?

/-- Switches one of the modes. Those of lines, of greed and of what a dot stands for are known, but
play no part in what can be matched. -/
def set (m : Mode) (letter : Char) (on : Bool) : Mode :=
  match letter with
  | 'i' => { m with ignoreCase := on }
  | 'u' => { m with allScripts := on }
  | 'x' => { m with spaced := on }
  | _ => m

/-- Whether letters switch modes: each is known and comes once. A dash may stand in front of those
that are switched off. -/
def isChange (letters : List Char) : Bool :=
  letters.all (['i', 'm', 's', 'U', 'u', 'R', 'x', '-'].contains ·) &&
    letters.eraseDups.length == letters.length && letters.getLast? != some '-'

def change (m : Mode) (letters : List Char) : Mode :=
  let m := (letters.takeWhile (· ≠ '-')).foldl (fun m c => m.set c true) m
  (letters.dropWhile (· ≠ '-')).foldl (fun m c => m.set c false) m

end Mode

/-- A part of a pattern that has no parts of its own. -/
inductive Atom where
  /-- a character; `asByte` if it is given by two hexadecimal digits -/
  | char (c : Char) (asByte : Bool)
  /-- any character of a line -/
  | any
  /-- the beginning or the end of a line or of the text -/
  | edge
  /-- the beginning or the end of a word, or the inside of one -/
  | wordEdge
  /-- digits, blanks or what words consist of, or all other characters -/
  | shorthand (negated : Bool)
  /-- the characters of a class that has a letter for its name -/
  | property

namespace Atom

/-- Reads a fixed number of hexadecimal digits, with `n` the value of those already read. -/
def hex? (m : Mode) (n : Nat) : Nat → List Char → Option (Nat × List Char)
  | 0, s => some (n, s)
  | _ + 1, [] => none
  | k + 1, c :: s =>
    match Text.digit? c with
    | some d => hex? m (16 * n + d) k (m.skip s)
    | none => none

def ofHex? (m : Mode) (digits : Nat) (s : List Char) : Option (Atom × List Char) :=
  match hex? m 0 digits (m.skip s) with
  | some (n, rest) =>
    if n.isValidChar then some (.char (Char.ofNat n) (digits == 2), rest) else none
  | none => none

def ofProperty? (m : Mode) (s : List Char) : Option (Atom × List Char) :=
  match m.skip s with
  | [] => none
  | c :: s => if c = '\\' ∨ c = '\x7b' then none else some (.property, s)

/-- Reads what follows a backslash. A mark stands for itself; a letter or a digit is a mistake if it
has no meaning of its own. -/
def ofEscape? (m : Mode) : List Char → Option (Atom × List Char)
  | [] => none
  | c :: s =>
    match c with
    | 'x' => ofHex? m 2 s
    | 'u' => ofHex? m 4 s
    | 'U' => ofHex? m 8 s
    | 'p' | 'P' => ofProperty? m s
    | 'd' | 's' | 'w' => some (.shorthand false, s)
    | 'D' | 'S' | 'W' => some (.shorthand true, s)
    | 'a' => some (.char '\x07' false, s)
    | 't' => some (.char '\t' false, s)
    | 'n' => some (.char '\n' false, s)
    | 'v' => some (.char '\x0b' false, s)
    | 'f' => some (.char '\x0c' false, s)
    | 'r' => some (.char '\r' false, s)
    | 'A' | 'z' => some (.edge, s)
    | 'b' | 'B' | '<' | '>' => some (.wordEdge, s)
    | c => if c.toNat < 0x80 ∧ ¬ c.isAlphanum then some (.char c false, s) else none

end Atom

def Mode.supports (m : Mode) : Atom → Bool
  | .char c asByte => if m.allScripts then !m.ignoreCase else !asByte || c.toNat < 0x80
  | .any => m.allScripts
  | .edge => true
  | .wordEdge => !m.allScripts
  | .shorthand negated => !m.allScripts && !negated
  | .property => false

def Mode.supportsInSet (m : Mode) : Atom → Bool
  | .char c _ => if m.allScripts then !m.ignoreCase else c.toNat < 0x80
  | .shorthand negated => !m.allScripts && !negated
  | _ => false

/-- Whether a set that is known by its name can be matched as a member of a set. -/
def Mode.supportsNamed (m : Mode) (negated : Bool) : Bool :=
  if m.allScripts then !m.ignoreCase else !negated

end RespCache.Pattern
