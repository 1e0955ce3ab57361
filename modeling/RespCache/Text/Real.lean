/-!
The text of real numbers: decimals with a point or an exponent, and the names of what is no number
or not finite.
-/

namespace RespCache.Text

def isExponent : List Char → Bool
  | [] => true
  | e :: s =>
    let digits :=
      match s with
      | '+' :: t => t
      | '-' :: t => t
      | t => t
    (e == 'e' || e == 'E') && !digits.isEmpty && digits.all Char.isDigit

/-- Digits with at most one point before, among or after them, and an exponent. -/
def isDecimal (s : List Char) : Bool :=
  match s.dropWhile Char.isDigit with
  | '.' :: t =>
    (s.head?.any Char.isDigit || t.head?.any Char.isDigit) && isExponent (t.dropWhile Char.isDigit)
  | t => s.head?.any Char.isDigit && isExponent t

/-- A real number after an optional sign. The names are the same in any case. -/
def isReal (s : List Char) : Bool :=
  let number :=
    match s with
    | '+' :: t => t
    | '-' :: t => t
    | t => t
  isDecimal number ||
    ["inf", "infinity", "nan"].contains (String.ofList (number.map Char.toLower))

end RespCache.Text
