import RespCache.Text.Digits

/-!
Internet addresses of either version, and their text. An address of version 4 may be written in
fewer than four parts, of which the last fills what is left, and each part in one of three bases. An
address of version 6 is eight groups; two colons stand for groups of zeros, and the last two groups
may be written as an address of version 4.
-/

namespace RespCache

inductive Address where
  | v4 (bits : BitVec 32)
  | v6 (bits : BitVec 128)
  deriving DecidableEq

namespace Address

/-- The address by which every host knows itself. -/
def loopback : Address := .v4 0x7F000001

/-- Whether the address stands for all those of a host. -/
def isWildcard : Address → Bool
  | .v4 bits => bits == 0
  | .v6 bits => bits == 0

def isGroup : Address → Bool
  | .v4 _ => false
  | .v6 bits => bits >>> 120 == 0xFF

/-- Whether an address of version 6 is that of one host on a link of its own. -/
def isLinkLocal : Address → Bool
  | .v4 _ => false
  | .v6 bits => bits >>> 118 == 0x3FA

/-- Whether an address of version 6 means nothing beyond one link: that of one host on it, or that
of a group, if the second byte ends in 1 or 2 for how far the group reaches. -/
def isConfined : Address → Bool
  | .v4 _ => false
  | .v6 bits =>
    let reach := bits >>> 112 &&& 0xFF0F
    isLinkLocal (.v6 bits) || reach == 0xFF01 || reach == 0xFF02

/-- A number in base sixteen after `0x`, in base eight after another zero, or in base ten. -/
def part? : List Char → Option Nat
  | '0' :: c :: s => if c = 'x' ∨ c = 'X' then Text.numeral? 16 s else Text.numeral? 8 (c :: s)
  | s => Text.numeral? 10 s

/-- An address from up to four parts. All but the last are one byte each. -/
def ofParts? (parts : List Nat) : Option Address :=
  match parts.reverse with
  | [] => none
  | last :: front =>
    let room := Nat.pow 256 (4 - front.length)
    if front.length ≤ 3 ∧ front.all (· < 256) ∧ last < room then
      some (.v4 (BitVec.ofNat 32 (front.foldr (fun part n => 256 * n + part) 0 * room + last)))
    else none

def v4OfText? (s : List Char) : Option Address := do
  ofParts? (← ((String.ofList s).splitOn ".").mapM fun part => part? part.toList)

def byte? (s : List Char) : Option Nat :=
  if s.length ≤ 3 ∧ (s.head? ≠ some '0' ∨ s.length = 1) then
    (Text.numeral? 10 s).filter (· < 256)
  else none

/-- Two groups, written as four bytes with points between them. -/
def quad? (s : List Char) : Option (List Nat) := do
  match ← ((String.ofList s).splitOn ".").mapM fun byte => byte? byte.toList with
  | [a, b, c, d] => some [256 * a + b, 256 * c + d]
  | _ => none

def group? (s : List Char) : Option Nat := if s.length ≤ 4 then Text.numeral? 16 s else none

/-- Groups with colons between them. The last may be two in one if `mayEndInQuad`. -/
def groups? (mayEndInQuad : Bool) : List (List Char) → Option (List Nat)
  | [] => some []
  | [s] =>
    match group? s with
    | some g => some [g]
    | none => if mayEndInQuad then quad? s else none
  | s :: rest => do
    let g ← group? s
    let gs ← groups? mayEndInQuad rest
    some (g :: gs)

/-- Reads groups from a text; there are none in an empty one. -/
def groupsOfText? (mayEndInQuad : Bool) (s : String) : Option (List Nat) :=
  groups? mayEndInQuad (if s = "" then [] else (s.splitOn ":").map String.toList)

/-- An address from its groups. One that stands for an address of version 4 is that address. -/
def ofGroups (groups : List Nat) : Address :=
  let n := groups.foldl (fun n g => 65536 * n + g) 0
  if n / UInt32.size = 0xFFFF then .v4 (BitVec.ofNat 32 n) else .v6 (BitVec.ofNat 128 n)

def v6OfText? (s : List Char) : Option Address := do
  match (String.ofList s).splitOn "::" with
  | [all] =>
    let groups ← groupsOfText? true all
    if groups.length = 8 then some (ofGroups groups) else none
  | [front, back] =>
    let front ← groupsOfText? false front
    let back ← groupsOfText? true back
    if front.length + back.length ≤ 7 then
      some (ofGroups (front ++ List.replicate (8 - front.length - back.length) 0 ++ back))
    else none
  | _ => none

end Address

end RespCache
