import RespCache.Log
import RespCache.Pattern
import RespCache.Text.Decimal
import RespCache.Text.Real
import RespCache.Text.Utf8

/-!
What a text of comma-separated directives wants to be logged. A directive is a level, a target, or a
target and a level with `=` between them; a target may be narrowed to a span and its fields, in
brackets. A target by itself, and one with nothing after the `=`, is wanted in full. Text that
cannot be read stands for `info`.
-/

namespace RespCache.Log

structure Directive where
  level : Level
  /-- whether it asks for the value of a field, which is known only while a span is open -/
  asksValue : Bool

/-- A level by its name in any case, or by its rank. -/
def Level.ofText? (s : List Char) : Option Level :=
  match Decimal.unsigned? (Utf8.encode (String.ofList s)) with
  | some n => Level.all.find? fun l => l.rank == n
  | none => Level.all.find? fun l => l.name == String.ofList (s.map Char.toLower)

namespace Directive

/-- The text of a directive as it was written. The parts of a directive are found in its text
without the blanks at its ends; what they say is read at the same places of the text with them. -/
structure Written where
  bytes : Bytes
  /-- the number of bytes without the blanks -/
  size : Nat

namespace Written

def ofText (s : List Char) : Written :=
  ⟨Utf8.encode (String.ofList s), (Utf8.encode (String.ofList (Text.trim s))).length⟩

/-- The place of a part, given by the text from there on. -/
def place (w : Written) (rest : List Char) : Nat :=
  w.size - (Utf8.encode (String.ofList rest)).length

/-- What is written between two places, unless one of them lies within a character. -/
def between? (w : Written) (first last : Nat) : Option (List Char) :=
  (Utf8.decode? ((w.bytes.drop first).take (last - first))).map String.toList

def from? (w : Written) (rest : List Char) : Option (List Char) :=
  w.between? (w.place rest) w.bytes.length

/-- What is written between the place of a part and that of a later one. -/
def upTo? (w : Written) (part rest : List Char) : Option (List Char) :=
  w.between? (w.place part) (w.place rest)

end Written

/-- Whether a field can have this value: a number, or text that a pattern matches. The truth values
are among the patterns. -/
def isValue (s : List Char) : Bool := Text.isReal s || Pattern.isValid s

/-- Whether a field comes with a value, which stands between the first `=` and the second. -/
def asksValue? (field : List Char) : Option Bool :=
  match field.dropWhile (· ≠ '=') with
  | [] => some false
  | _ :: s => if isValue (s.takeWhile (· ≠ '=')) then some true else none

def afterTarget (w : Written) (asksValue : Bool) : List Char → Option Directive
  | [] => some ⟨.trace, asksValue⟩
  | '=' :: s => do
    let text ← w.from? s
    let level ← if text.isEmpty then some .trace else Level.ofText? text
    return ⟨level, asksValue⟩
  | _ => none

def afterBrace (w : Written) (s : List Char) : Option Directive :=
  match s.dropWhile (· ≠ '\x7d') with
  | brace :: ']' :: rest => do
    let field ← w.upTo? s (brace :: ']' :: rest)
    if field.isEmpty then none
    else
      let asksValue ← asksValue? field
      afterTarget w asksValue rest
  | _ => none

def afterBracket (w : Written) (s : List Char) : Option Directive :=
  match s.dropWhile fun c => c ≠ ']' && c ≠ '\x7b' with
  | ']' :: rest => afterTarget w false rest
  | _ :: rest => afterBrace w rest
  | [] => none

def mayBegin (c : Char) : Bool := c == '-' || c == ':' || c == '_' || Text.alphanumeric c

/-- Reads a directive whose blanks have been taken away. -/
def ofTrimmed (w : Written) : List Char → Option Directive
  | [] => none
  | '[' :: s => afterBracket w s
  | c :: s =>
    if mayBegin c then
      match (c :: s).dropWhile fun c => c ≠ '=' && c ≠ '[' with
      | [] => (w.from? (c :: s)).map fun text => ⟨(Level.ofText? text).getD .trace, false⟩
      | '[' :: rest => afterBracket w rest
      | rest => afterTarget w false rest
    else none

def ofText? (s : List Char) : Option Directive := ofTrimmed (Written.ofText s) (Text.trim s)

end Directive

/-- The most verbose level that some directive lets through. The value of a field may let anything
through. -/
def levelOf (ds : List Directive) : Level :=
  if ds.any (·.asksValue) then .trace else (ds.map (·.level)).foldl Level.max .off

def maxLevel : Option String → Level
  | none => .info
  | some text =>
    match ((text.splitOn ",").filter (· ≠ "")).mapM fun s => Directive.ofText? s.toList with
    | some ds => levelOf ds
    | none => .info

end RespCache.Log
