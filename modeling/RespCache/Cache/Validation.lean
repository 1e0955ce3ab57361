import RespCache.Cache

/-!
A check that index and chain of a cache describe the same entries. It goes over the index only; that
the sizes agree and the chain is sound makes up for the other direction.
-/

namespace RespCache.Cache

universe u v

inductive Violation where
  | chain (v : Chain.Violation)
  | sizesDiffer
  | overCapacity
  | vacantNode
  | otherKey

variable {κ : Type u} {ν : Type v} [BEq κ] [Hashable κ]

/-- Whether the handle that the index gives for a key leads to a node with that key. -/
def checkIndexed (c : Cache κ ν) (key : κ) (h : Handle) : Except Violation Unit :=
  match c.order.get? h with
  | none => .error .vacantNode
  | some entry => if entry.key == key then .ok () else .error .otherKey

def validate (c : Cache κ ν) : Except Violation Unit := do
  match c.order.validate with
  | .error v => throw (.chain v)
  | .ok () => pure ()
  if c.order.length ≠ c.index.size then throw .sizesDiffer
  if c.capacity < c.index.size then throw .overCapacity
  c.index.toList.forM fun (key, h) => c.checkIndexed key h

end RespCache.Cache
