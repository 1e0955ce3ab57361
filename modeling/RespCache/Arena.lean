/-!
An arena: storage that names its values by handles and uses its slots again. A slot that gives up
its value moves on to the next generation, so a handle resolves only while the value it was made for
is there, until the 32-bit count of generations comes round.
-/

namespace RespCache

universe u

/-- Names a value in an arena: its slot, and that slot's generation when the value was put there. -/
structure Handle where
  index : Nat
  generation : UInt32
  deriving DecidableEq

/-- A place for one value. The generation counts, modulo `2^32`, the values the slot gave up. -/
structure Slot (α : Type u) where
  generation : UInt32
  content : Option α

namespace Slot

variable {α : Type u}

/-- The slot without its value; a slot that holds none stays in its generation. -/
def vacate (s : Slot α) : Slot α :=
  match s.content with
  | some _ => ⟨s.generation + 1, none⟩
  | none => s

end Slot

/-- Slots, and the indices of the vacant ones with the one vacated last in front. -/
structure Arena (α : Type u) where
  slots : Array (Slot α) := #[]
  free : List Nat := []

namespace Arena

variable {α : Type u}

/-- The value that a handle resolves to. -/
def get? (a : Arena α) (h : Handle) : Option α :=
  match a.slots[h.index]? with
  | some s => if s.generation = h.generation then s.content else none
  | none => none

/-- Changes the value that a handle resolves to; nothing happens if there is none. -/
def modify (a : Arena α) (h : Handle) (f : α → α) : Arena α :=
  match a with
  | ⟨slots, free⟩ =>
    { slots := slots.modify h.index fun s =>
        if s.generation = h.generation then { s with content := s.content.map f } else s
      free }

/-- Puts a value into the slot vacated last, or into a new slot if none is vacant. -/
def insert (a : Arena α) (x : α) : Handle × Arena α :=
  match a with
  | ⟨slots, []⟩ => (⟨slots.size, 0⟩, ⟨slots.push ⟨0, some x⟩, []⟩)
  | ⟨slots, i :: free⟩ =>
    (⟨i, (slots[i]?.map Slot.generation).getD 0⟩,
      ⟨slots.modify i fun s => { s with content := some x }, free⟩)

def erase (a : Arena α) (h : Handle) : Option (α × Arena α) :=
  match a.get? h with
  | none => none
  | some x =>
    match a with
    | ⟨slots, free⟩ => some (x, ⟨slots.modify h.index Slot.vacate, h.index :: free⟩)

/-- Takes out every value. All slots become vacant, to be used again from the last one down. -/
def clear (a : Arena α) : Arena α :=
  match a with
  | ⟨slots, _⟩ => ⟨slots.map Slot.vacate, (List.range slots.size).reverse⟩

def occupied (a : Arena α) : Nat := a.slots.countP fun s => s.content.isSome

end Arena

end RespCache
