import RespCache.Proofs.Chain.Segment

/-!
The operations of a chain on a plain list of handles and payloads. No links, no slots and no counts:
`Segment.step` says what each operation answers and what it makes of the list. Only the handle that
a push gives out is not decided by the list; it is taken as an argument.
-/

namespace RespCache

universe u

/-- An operation of a chain. A handle may be any, whether it has ever been given out or not. -/
inductive Chain.Op (α : Type u) where
  | pushFront (x : α)
  | pushBack (x : α)
  | remove (h : Handle)
  | popBack
  | moveToFront (h : Handle)
  | modify (h : Handle) (f : α → α)
  | clear

inductive Chain.Answer (α : Type u) where
  | handle (h : Handle)
  | payload (x : Option α)
  | flag (flag : Bool)
  | done

namespace Chain.Op

variable {α : Type u}

def target? : Op α → Option Handle
  | .remove h | .moveToFront h | .modify h _ => some h
  | _ => none

/-- The answer of an operation that finds no node. -/
def miss : Op α → Answer α
  | .moveToFront _ => .flag false
  | _ => .payload none

end Chain.Op

namespace Segment

variable {α : Type u}

/-- The list without the pair of a handle. -/
def delete (s : Segment α) (h : Handle) : Segment α := s.filter fun p => p.1 ≠ h

/-- The list with another payload beside a handle. -/
def overwrite (s : Segment α) (h : Handle) (f : α → α) : Segment α :=
  s.map fun p => if p.1 = h then (h, f p.2) else p

/-- Carries out an operation; `name` is the handle that a push gives out. A change of a payload
answers the payload as it was. -/
def step (s : Segment α) (name : Handle) : Chain.Op α → Chain.Answer α × Segment α
  | .pushFront x => (.handle name, (name, x) :: s)
  | .pushBack x => (.handle name, s ++ [(name, x)])
  | .remove h => (.payload (s.lookup h), s.delete h)
  | .popBack => (.payload (s.getLast?.map Prod.snd), s.dropLast)
  | .moveToFront h =>
    match s.lookup h with
    | some x => (.flag true, (h, x) :: s.delete h)
    | none => (.flag false, s)
  | .modify h f => (.payload (s.lookup h), s.overwrite h f)
  | .clear => (.done, [])

/-- Carries out operations one after the other, each beside the handle that it gives out if it is a
push: the answer of each and the list after it. -/
def trace (s : Segment α) : List (Handle × Chain.Op α) → List (Chain.Answer α × Segment α)
  | [] => []
  | (name, op) :: ops => s.step name op :: trace (s.step name op).2 ops

/-! ### A handle that stands at a known place, or nowhere -/

variable {s t : Segment α} {h : Handle} {x : α}

theorem ne_of_not_mem_handles (hs : h ∉ handles s) {p : Handle × α} (hp : p ∈ s) : p.1 ≠ h :=
  fun heq => hs (heq ▸ List.mem_map_of_mem hp)

theorem lookup_of_not_mem (hs : h ∉ handles s) : s.lookup h = none := by
  apply List.lookup_eq_none_iff.mpr
  intro p hp
  exact bne_iff_ne.mpr (ne_of_not_mem_handles hs hp).symm

theorem lookup_node (hs : h ∉ handles s) : (s ++ (h, x) :: t).lookup h = some x := by
  rw [List.lookup_append, lookup_of_not_mem hs, Option.none_or, List.lookup_cons_self]

theorem delete_of_not_mem (hs : h ∉ handles s) : s.delete h = s := by
  apply List.filter_eq_self.mpr
  intro p hp
  exact decide_eq_true (ne_of_not_mem_handles hs hp)

theorem delete_node (hs : h ∉ handles s) (ht : h ∉ handles t) :
    (s ++ (h, x) :: t).delete h = s ++ t := by
  calc (s ++ (h, x) :: t).delete h = s.delete h ++ t.delete h := by simp [delete]
    _ = s ++ t := by rw [delete_of_not_mem hs, delete_of_not_mem ht]

theorem overwrite_of_not_mem (hs : h ∉ handles s) (f : α → α) : s.overwrite h f = s := by
  calc s.overwrite h f = s.map id :=
        List.map_congr_left fun p hp => if_neg (ne_of_not_mem_handles hs hp)
    _ = s := List.map_id s

theorem overwrite_node (hs : h ∉ handles s) (ht : h ∉ handles t) (f : α → α) :
    (s ++ (h, x) :: t).overwrite h f = s ++ (h, f x) :: t := by
  calc (s ++ (h, x) :: t).overwrite h f = s.overwrite h f ++ (h, f x) :: t.overwrite h f := by
        simp [overwrite]
    _ = s ++ (h, f x) :: t := by rw [overwrite_of_not_mem hs, overwrite_of_not_mem ht]

/-- An operation that is given a handle of no pair does nothing. -/
theorem step_of_not_mem {op : Chain.Op α} (htarget : op.target? = some h) (hs : h ∉ handles s)
    (name : Handle) : s.step name op = (op.miss, s) := by
  have hlookup := lookup_of_not_mem hs
  cases op with
  | remove g =>
      cases htarget
      rw [step, hlookup, delete_of_not_mem hs]
      rfl
  | moveToFront g =>
      cases htarget
      rw [step, hlookup]
      rfl
  | modify g f =>
      cases htarget
      rw [step, hlookup, overwrite_of_not_mem hs]
      rfl
  | pushFront | pushBack | popBack | clear => cases htarget

end Segment

end RespCache
