import RespCache.Chain

/-!
A check of a chain's structure that works on any value of the type, whatever its links say: the walk
from the head stops as soon as it has met more nodes than the chain claims to have.
-/

namespace RespCache

universe u

variable {α : Type u}

namespace Chain

inductive Violation where
  | strayHead
  | strayTail
  | emptyWithLength
  | danglingLink
  | brokenBackLink
  | tooLong
  | wrongTail
  | wrongLength
  | unlinkedNode
  | slotsUnaccounted
  deriving DecidableEq

/-- Follows the links from `current`, which comes after `prev`, over at most `budget` nodes. Gives
the last node met and what is left of the budget. -/
def walk (c : Chain α) :
    Nat → Option Handle → Option Handle → Except Violation (Option Handle × Nat)
  | budget, prev, none => .ok (prev, budget)
  | budget, prev, some h =>
    match c.arena.get? h with
    | none => .error .danglingLink
    | some n =>
      if n.prev = prev then
        match budget with
        | 0 => .error .tooLong
        | budget + 1 => c.walk budget (some h) n.next
      else .error .brokenBackLink

/-- An empty chain lacks both ends and has length zero. -/
def checkEnds (c : Chain α) : Except Violation Unit :=
  if c.head.isNone ∨ c.tail.isNone then
    if c.head.isSome then .error .strayHead
    else if c.tail.isSome then .error .strayTail
    else if c.length ≠ 0 then .error .emptyWithLength
    else .ok ()
  else .ok ()

/-- Checks the ends, the links, the length, and that every slot is either linked or free. -/
def validate (c : Chain α) : Except Violation Unit := do
  c.checkEnds
  let (last, left) ← c.walk c.length none c.head
  if last ≠ c.tail then throw .wrongTail
  if left ≠ 0 then throw .wrongLength
  if c.arena.occupied ≠ c.length then throw .unlinkedNode
  if c.arena.occupied + c.arena.free.length ≠ c.arena.slots.size then throw .slotsUnaccounted

end Chain

end RespCache
