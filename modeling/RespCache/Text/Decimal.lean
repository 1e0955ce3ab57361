import RespCache.Bytes

/-!
Decimal text. Numbers are written with the fewest digits; they are read with an optional sign and
with any number of leading zeros.
-/

namespace RespCache.Decimal

def digit (d : Nat) : UInt8 := UInt8.ofNat (48 + d)

/-- The digits of a natural number, without leading zeros. -/
def digits (n : Nat) : Bytes :=
  if n < 10 then [digit n] else digits (n / 10) ++ [digit (n % 10)]

def signed : Int → Bytes
  | .ofNat n => digits n
  | .negSucc n => 45 :: digits (n + 1)

def digitValue? (b : UInt8) : Option Nat :=
  if 48 ≤ b ∧ b ≤ 57 then some (b.toNat - 48) else none

/-- Reads digits on, with `n` the value of those already read. -/
def valueFrom? (n : Nat) : Bytes → Option Nat
  | [] => some n
  | b :: bs =>
    match digitValue? b with
    | some d => valueFrom? (10 * n + d) bs
    | none => none

/-- The number that one or more digits stand for. -/
def value? : Bytes → Option Nat
  | [] => none
  | bs => valueFrom? 0 bs

def unsigned? : Bytes → Option Nat
  | 43 :: bs => value? bs
  | bs => value? bs

def signed? : Bytes → Option Int
  | 43 :: bs => (value? bs).map Int.ofNat
  | 45 :: bs => (value? bs).map fun n => -Int.ofNat n
  | bs => (value? bs).map Int.ofNat

def int64? (bs : Bytes) : Option Int64 :=
  match signed? bs with
  | some i =>
    if Int64.minValue.toInt ≤ i ∧ i ≤ Int64.maxValue.toInt then some (Int64.ofInt i) else none
  | none => none

end RespCache.Decimal
