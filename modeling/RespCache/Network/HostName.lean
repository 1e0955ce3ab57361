import RespCache.Text.Digits

/-!
The names that hosts go by: labels with points between them. A character of a label may be written
behind a backslash, as itself or as the three digits of its number.
-/

namespace RespCache.HostName

def isLabelChar (c : Char) : Bool := c.isAlphanum || c == '-' || c == '_'

/-- Puts a character that was escaped before what follows it. A point that is escaped would belong
to a label, and is refused. -/
def escaped? (c : Char) (s : Option (List Char)) : Option (List Char) :=
  if isLabelChar c then s.map (c :: ·) else none

/-- The name without its escapes. A digit behind a backslash is the first of three. -/
def unescape? : List Char → Option (List Char)
  | [] => some []
  | ['\\'] => none
  | '\\' :: c :: s =>
    if c.isDigit then
      match s with
      | d :: e :: s => do escaped? (Char.ofNat (← Text.numeral? 10 [c, d, e])) (unescape? s)
      | _ => none
    else escaped? c (unescape? s)
  | c :: s => (unescape? s).map (c :: ·)

def isLabel (s : List Char) : Bool := s.all isLabelChar && s ≠ [] && s.length ≤ 63

/-- Whether a text is labels with points between them, 253 characters in all at most. The first does
not begin with a hyphen; the others may. -/
def isPlain (s : List Char) : Bool :=
  s.length ≤ 253 && s.head? ≠ some '-' &&
    ((String.ofList s).splitOn ".").all fun label => isLabel label.toList

/-- Whether a text is the name of a host. A point may follow the last label. Alone it is the name
that all others end in. -/
def isWellFormed (s : List Char) : Bool :=
  match unescape? s with
  | none => false
  | some name => name == ['.'] || isPlain (if name.getLast? = some '.' then name.dropLast else name)

end RespCache.HostName
