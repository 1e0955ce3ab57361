import RespCache.Chain

/-!
Walking a chain from its head, one payload at a time. What is left to come is counted down from the
chain's length, apart from the links that the walk follows.
-/

namespace RespCache

universe u

/-- A place in a chain: the next node to give out, and how many are left. -/
structure Cursor (α : Type u) where
  chain : Chain α
  current : Option Handle
  remaining : Nat

variable {α : Type u}

def Chain.cursor (c : Chain α) : Cursor α := ⟨c, c.head, c.length⟩

namespace Cursor

/-- The payload at this place and the place after it; past the tail there is none. -/
def next (k : Cursor α) : Option α × Cursor α :=
  match k.current with
  | none => (none, k)
  | some h =>
    match k.chain.arena.get? h with
    | none => (none, k)
    | some n => (some n.payload, { k with current := n.next, remaining := k.remaining - 1 })

/-- A lower and an upper bound on how many payloads are still to come. -/
def sizeHint (k : Cursor α) : Nat × Option Nat := (k.remaining, some k.remaining)

end Cursor

end RespCache
