import RespCache.Arena

/-!
A doubly linked chain whose nodes live in an arena, ordered from the most recently used node at the
head to the least recently used one at the tail. Every operation touches a fixed number of nodes.
The fields are open: a value of this type need not be a chain that the operations can build.
-/

namespace RespCache

universe u

structure Node (α : Type u) where
  payload : α
  prev : Option Handle
  next : Option Handle

/-- Nodes in an arena, linked both ways, with the handles of both ends and the number of nodes. -/
structure Chain (α : Type u) where
  arena : Arena (Node α) := {}
  head : Option Handle := none
  tail : Option Handle := none
  length : Nat := 0

namespace Chain

variable {α : Type u}

def empty : Chain α := {}

def isEmpty (c : Chain α) : Bool := c.length == 0

def get? (c : Chain α) (h : Handle) : Option α := (c.arena.get? h).map Node.payload

def contains (c : Chain α) (h : Handle) : Bool := (c.arena.get? h).isSome

def next? (c : Chain α) (h : Handle) : Option Handle := (c.arena.get? h).bind Node.next

def prev? (c : Chain α) (h : Handle) : Option Handle := (c.arena.get? h).bind Node.prev

/-- Makes `next` follow the node `h`; where `h` is no node, `next` becomes the head. -/
def setNext (c : Chain α) (h next : Option Handle) : Chain α :=
  match c with
  | ⟨arena, head, tail, length⟩ =>
    match h with
    | some h => ⟨arena.modify h fun n => { n with next }, head, tail, length⟩
    | none => ⟨arena, next, tail, length⟩

/-- Makes `prev` precede the node `h`; where `h` is no node, `prev` becomes the tail. -/
def setPrev (c : Chain α) (h prev : Option Handle) : Chain α :=
  match c with
  | ⟨arena, head, tail, length⟩ =>
    match h with
    | some h => ⟨arena.modify h fun n => { n with prev }, head, tail, length⟩
    | none => ⟨arena, head, prev, length⟩

/-- Gives a node the neighbours `prev` and `next`, without telling them. -/
def setLinks (c : Chain α) (h : Handle) (prev next : Option Handle) : Chain α :=
  match c with
  | ⟨arena, head, tail, length⟩ =>
    ⟨arena.modify h fun n => { n with prev, next }, head, tail, length⟩

/-- Takes a node out of the chain and joins its neighbours; the node stays in the arena, unlinked.
-/
def detach (c : Chain α) (h : Handle) : Option (Chain α) :=
  match c.arena.get? h with
  | none => none
  | some n =>
    let c := ((c.setNext n.prev n.next).setPrev n.next n.prev).setLinks h none none
    match c with
    | ⟨arena, head, tail, length⟩ => some ⟨arena, head, tail, length - 1⟩

def attachFront (c : Chain α) (h : Handle) : Chain α :=
  if c.contains h then
    let oldHead := c.head
    match (c.setLinks h none oldHead).setPrev oldHead (some h) with
    | ⟨arena, _, tail, length⟩ => ⟨arena, some h, tail, length + 1⟩
  else c

def attachBack (c : Chain α) (h : Handle) : Chain α :=
  if c.contains h then
    let oldTail := c.tail
    match (c.setLinks h oldTail none).setNext oldTail (some h) with
    | ⟨arena, head, _, length⟩ => ⟨arena, head, some h, length + 1⟩
  else c

/-- Adds a node that is linked to nothing yet. -/
def alloc (c : Chain α) (payload : α) : Handle × Chain α :=
  match c with
  | ⟨arena, head, tail, length⟩ =>
    let (h, arena) := arena.insert ⟨payload, none, none⟩
    (h, ⟨arena, head, tail, length⟩)

def pushFront (c : Chain α) (payload : α) : Handle × Chain α :=
  let (h, c) := c.alloc payload
  (h, c.attachFront h)

def pushBack (c : Chain α) (payload : α) : Handle × Chain α :=
  let (h, c) := c.alloc payload
  (h, c.attachBack h)

def remove (c : Chain α) (h : Handle) : Option (α × Chain α) :=
  match c.detach h with
  | none => none
  | some ⟨arena, head, tail, length⟩ =>
    match arena.erase h with
    | none => none
    | some (n, arena) => some (n.payload, ⟨arena, head, tail, length⟩)

def popBack (c : Chain α) : Option (α × Chain α) :=
  match c.tail with
  | some h => c.remove h
  | none => none

/-- Makes a node the head; its handle and payload stay as they are. -/
def moveToFront (c : Chain α) (h : Handle) : Option (Chain α) :=
  if c.contains h then
    if c.head = some h then some c
    else (c.detach h).map fun c => c.attachFront h
  else none

def modify? (c : Chain α) (h : Handle) (f : α → α) : Option (Chain α) :=
  if c.contains h then
    match c with
    | ⟨arena, head, tail, length⟩ =>
      some ⟨arena.modify h fun n => { n with payload := f n.payload }, head, tail, length⟩
  else none

def clear (c : Chain α) : Chain α :=
  match c with
  | ⟨arena, _, _, _⟩ => ⟨arena.clear, none, none, 0⟩

/-- The nodes met from `h` on, at most `n` of them. -/
def nodesFrom (c : Chain α) : Nat → Option Handle → List (Handle × α)
  | 0, _ => []
  | _ + 1, none => []
  | n + 1, some h =>
    match c.arena.get? h with
    | some node => (h, node.payload) :: nodesFrom c n node.next
    | none => []

/-- Handles and payloads from head to tail. A chain that does not run in a circle meets every slot
at most once, so as many steps as there are slots reach its end. -/
def nodes (c : Chain α) : List (Handle × α) := c.nodesFrom c.arena.slots.size c.head

def toList (c : Chain α) : List α := c.nodes.map Prod.snd

end Chain

end RespCache
