/-!
Digits up to those of base sixteen, in either case.
-/

namespace RespCache.Text

def digit? (c : Char) : Option Nat :=
  if '0' ≤ c ∧ c ≤ '9' then some (c.toNat - '0'.toNat)
  else if 'a' ≤ c ∧ c ≤ 'f' then some (c.toNat - 'a'.toNat + 10)
  else if 'A' ≤ c ∧ c ≤ 'F' then some (c.toNat - 'A'.toNat + 10)
  else none

/-- Reads digits on, with `n` the value of those already read. -/
def numeralFrom? (base n : Nat) : List Char → Option Nat
  | [] => some n
  | c :: s =>
    match digit? c with
    | some d => if d < base then numeralFrom? base (base * n + d) s else none
    | none => none

def numeral? (base : Nat) : List Char → Option Nat
  | [] => none
  | s => numeralFrom? base 0 s

end RespCache.Text
