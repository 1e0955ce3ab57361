import Std.Data.HashMap
import RespCache.Chain.Validation
import RespCache.Log

/-!
A cache of fixed capacity that drops the entry used least recently when a new key needs its place. A
chain keeps the entries in order of use and an index finds the node of a key. The two have to
describe the same entries; an operation that finds them apart stops with a fault instead of
answering.
-/

namespace RespCache

universe u v w

structure Entry (κ : Type u) (ν : Type v) where
  key : κ
  value : ν

/-- The index from keys to nodes, the entries in order of use, and the greatest number of them. -/
structure Cache (κ : Type u) (ν : Type v) [BEq κ] [Hashable κ] where
  index : Std.HashMap κ Handle
  order : Chain (Entry κ ν)
  capacity : Nat

namespace Cache

inductive Fault where
  | zeroCapacity
  | outOfSync
  deriving DecidableEq

def Fault.message : Fault → String
  | .zeroCapacity => "Capacity must be greater than 0"
  | .outOfSync => "lrucache: index and recency list out of sync"

inductive Refusal where
  | zeroCapacity
  deriving DecidableEq

def Refusal.message : Refusal → String
  | .zeroCapacity => "Cache capacity must be greater than 0"

inductive Event where
  | created (capacity : Nat)
  | evicted (capacity : Nat)
  | cleared (dropped : Nat)
  deriving DecidableEq

def Event.record : Event → Log.Record
  | .created n => ⟨.debug, "creating LRU cache", [("capacity", n)]⟩
  | .evicted n => ⟨.trace, "evicted least recently used entry", [("capacity", n)]⟩
  | .cleared n => ⟨.debug, "cleared LRU cache", [("dropped", n)]⟩

/-- What an operation answers, the cache after it, and what it reported, in order. -/
structure Outcome (κ : Type u) (ν : Type v) (ρ : Type w) [BEq κ] [Hashable κ] where
  value : ρ
  cache : Cache κ ν
  events : List Event

variable {κ : Type u} {ν : Type v} [BEq κ] [Hashable κ]

/-- The empty cache, for a capacity that callers promise to be positive. -/
def ofCapacity (capacity : Nat) : Except Fault (Outcome κ ν Unit) :=
  if capacity = 0 then .error .zeroCapacity
  else .ok ⟨(), ⟨∅, .empty, capacity⟩, [.created capacity]⟩

/-- The empty cache, for a capacity that comes from outside. -/
def ofCapacity? (capacity : Nat) : Except Refusal (Outcome κ ν Unit) :=
  if capacity = 0 then .error .zeroCapacity
  else .ok ⟨(), ⟨∅, .empty, capacity⟩, [.created capacity]⟩

/-- The value of a key, which becomes the key used last. -/
def get (c : Cache κ ν) (key : κ) : Except Fault (Option ν × Cache κ ν) :=
  match c with
  | ⟨index, order, capacity⟩ =>
    match index[key]? with
    | none => .ok (none, ⟨index, order, capacity⟩)
    | some h =>
      match order.moveToFront h with
      | none => .error .outOfSync
      | some order =>
        match order.get? h with
        | none => .error .outOfSync
        | some entry => .ok (some entry.value, ⟨index, order, capacity⟩)

/-- Drops the entry used least recently. -/
def evict (c : Cache κ ν) : Except Fault (Cache κ ν) :=
  match c with
  | ⟨index, order, capacity⟩ =>
    match order.popBack with
    | none => .error .outOfSync
    | some (entry, order) =>
      if index.contains entry.key then .ok ⟨index.erase entry.key, order, capacity⟩
      else .error .outOfSync

/-- Adds a key that is absent, as the one used last. -/
def insertNew (c : Cache κ ν) (key : κ) (value : ν) : Cache κ ν :=
  match c with
  | ⟨index, order, capacity⟩ =>
    let (h, order) := order.pushFront ⟨key, value⟩
    ⟨index.insert key h, order, capacity⟩

/-- Gives a key a value and makes it the key used last. Answers whether the key was present; if it
was not and the cache is full, the entry used least recently goes. -/
def set (c : Cache κ ν) (key : κ) (value : ν) : Except Fault (Outcome κ ν Bool) :=
  match c.index[key]? with
  | some h =>
    match c with
    | ⟨index, order, capacity⟩ =>
      match order.moveToFront h with
      | none => .error .outOfSync
      | some order =>
        match order.modify? h fun entry => { entry with value } with
        | none => .error .outOfSync
        | some order => .ok ⟨true, ⟨index, order, capacity⟩, []⟩
  | none =>
    if c.capacity ≤ c.order.length then
      let capacity := c.capacity
      match c.evict with
      | .error fault => .error fault
      | .ok c => .ok ⟨false, c.insertNew key value, [.evicted capacity]⟩
    else .ok ⟨false, c.insertNew key value, []⟩

/-- Whether a key is present; the order of use stays as it is. -/
def contains (c : Cache κ ν) (key : κ) : Bool := c.index.contains key

def size (c : Cache κ ν) : Nat := c.index.size

def isEmpty (c : Cache κ ν) : Bool := c.size == 0

def clear (c : Cache κ ν) : Outcome κ ν Unit :=
  match c with
  | ⟨index, order, capacity⟩ => ⟨(), ⟨∅, order.clear, capacity⟩, [.cleared index.size]⟩

/-- Keys and values, the ones used last in front. -/
def toList (c : Cache κ ν) : List (κ × ν) := c.order.toList.map fun e => (e.key, e.value)

end Cache

end RespCache
