import RespCache.Proofs.Chain.Modified
import RespCache.Proofs.Chain.Run
import RespCache.Proofs.Chain.Validation

/-!
How many slots a chain takes up. A push makes a new slot only when all of them are occupied, and no
operation gives a slot away (`Holds.size_slots_step`). So there are as many slots as the chain has had
nodes at one time (`max?_lengths_empty`), however often nodes came and went.
-/

namespace RespCache.Chain

open Segment

universe u

variable {α : Type u}

/-- The lengths that a chain has in a run, at its start and after each operation. -/
def lengths (c : Chain α) (ops : List (Op α)) : List Nat :=
  c.length :: (c.trace ops).map fun o => o.2.length

theorem lengths_nil (c : Chain α) : c.lengths [] = [c.length] := rfl

theorem lengths_cons (c : Chain α) (op : Op α) (ops : List (Op α)) :
    c.lengths (op :: ops) = c.length :: (c.step op).2.lengths ops := rfl

theorem after_append (c : Chain α) (ops more : List (Op α)) :
    c.after (ops ++ more) = (c.after ops).after more := by
  induction ops generalizing c with
  | nil => rfl
  | cons op ops ih => exact ih (c.step op).2

/-- The lengths in a run of two parts are those in the parts. -/
theorem mem_lengths_append {c : Chain α} {ops more : List (Op α)} {n : Nat}
    (hn : n ∈ c.lengths (ops ++ more)) : n ∈ c.lengths ops ∨ n ∈ (c.after ops).lengths more := by
  induction ops generalizing c with
  | nil => exact Or.inr hn
  | cons op ops ih =>
      rcases List.mem_cons.mp hn with rfl | hn
      · exact Or.inl List.mem_cons_self
      · exact (ih hn).imp_left (List.mem_cons_of_mem _)

/-! ### Lengths -/

namespace Holds

variable {c : Chain α} {s : Segment α}

theorem length_step_pushFront (hc : c.Holds s []) (x : α) :
    (c.step (.pushFront x)).2.length = c.length + 1 := by
  obtain ⟨name, -, hstep⟩ := hc.step (.pushFront x)
  rw [hstep.length, hc.length]
  rfl

theorem length_step_popBack (hc : c.Holds s []) : (c.step .popBack).2.length = c.length - 1 := by
  obtain ⟨name, -, hstep⟩ := hc.step .popBack
  rw [hstep.length, hc.length]
  exact List.length_dropLast

theorem length_step_moveToFront (hc : c.Holds s []) (h : Handle) :
    (c.step (.moveToFront h)).2.length = c.length := by
  by_cases hmem : h ∈ handles s
  · obtain ⟨t, x, u, rfl⟩ := exists_append_of_mem_handles hmem
    obtain ⟨c', hmove, hheld⟩ := hc.moveToFront
    simp only [Chain.step, hmove, hheld.length, hc.length]
    simp [Nat.add_assoc]
  · rw [hc.step_of_not_mem rfl hmem]

theorem length_step_modify (hc : c.Holds s []) (h : Handle) (f : α → α) :
    (c.step (.modify h f)).2.length = c.length := by
  obtain ⟨name, -, hstep⟩ := hc.step (.modify h f)
  rw [hstep.length, hc.length]
  exact List.length_map _

end Holds

/-! ### Slots -/

theorem size_slots_remove {c c' : Chain α} {h : Handle} {x : α} (hc' : c.remove h = some (x, c')) :
    c'.arena.slots.size = c.arena.slots.size := by
  obtain ⟨arena, n, hmodified, herase⟩ := exists_erase_of_remove hc'
  exact (Arena.size_slots_of_erase herase).trans hmodified.size_slots

theorem size_slots_popBack {c c' : Chain α} {x : α} (hc' : c.popBack = some (x, c')) :
    c'.arena.slots.size = c.arena.slots.size := by
  unfold popBack at hc'
  split at hc'
  case h_1 => exact size_slots_remove hc'
  case h_2 => cases hc'

theorem size_slots_clear (c : Chain α) : c.clear.arena.slots.size = c.arena.slots.size := by
  obtain ⟨arena, head, tail, length⟩ := c
  exact arena.size_slots_clear

namespace Holds

variable {c : Chain α} {s : Segment α}

theorem size_slots_alloc (hc : c.Holds s []) (x : α) :
    (c.alloc x).2.arena.slots.size = max c.arena.slots.size (s.length + 1) := by
  have hoccupied := hc.occupied_eq
  obtain ⟨arena, head, tail, length⟩ := c
  rw [← hoccupied]
  exact hc.arena.size_slots_insert _

/-- The slots become more only with nodes for which there are too few. -/
theorem size_slots_step (hc : c.Holds s []) (op : Op α) :
    (c.step op).2.arena.slots.size = max c.arena.slots.size (c.step op).2.length := by
  obtain ⟨name, -, hstep⟩ := hc.step op
  -- where no slot is made, those that are there have room for the nodes
  have hkept (hsize : (c.step op).2.arena.slots.size = c.arena.slots.size) :
      (c.step op).2.arena.slots.size = max c.arena.slots.size (c.step op).2.length := by
    rw [← hsize, hstep.length]
    exact (Nat.max_eq_left hstep.length_le_size).symm
  cases op with
  | pushFront x =>
      rw [hstep.length]
      exact (modified_attachFront _ _).size_slots.trans (hc.size_slots_alloc x)
  | pushBack x =>
      rw [hstep.length, Segment.step, List.length_append]
      exact (modified_attachBack _ _).size_slots.trans (hc.size_slots_alloc x)
  | remove h =>
      refine hkept ?_
      simp only [Chain.step]
      split
      case h_1 hremove => exact size_slots_remove hremove
      case h_2 => rfl
  | popBack =>
      refine hkept ?_
      simp only [Chain.step]
      split
      case h_1 hpop => exact size_slots_popBack hpop
      case h_2 => rfl
  | moveToFront h =>
      refine hkept ?_
      simp only [Chain.step]
      split
      case h_1 hmove => exact (modified_moveToFront hmove).size_slots
      case h_2 => rfl
  | modify h f =>
      refine hkept ?_
      simp only [Chain.step]
      split
      case h_1 hmodify => exact (modified_modify? hmodify).size_slots
      case h_2 => rfl
  | clear => exact hkept c.size_slots_clear

theorem size_slots_after (hc : c.Holds s []) (ops : List (Op α)) :
    (c.after ops).arena.slots.size =
      ((c.trace ops).map fun o => o.2.length).foldl max c.arena.slots.size := by
  induction ops generalizing c s with
  | nil => rfl
  | cons op ops ih =>
      obtain ⟨s', hstep⟩ := hc.exists_step op
      rw [after, ih hstep, hc.size_slots_step, Chain.trace, List.map_cons, List.foldl_cons]

end Holds

/-- After any run from the empty chain on there are as many slots as the chain was long at most. -/
theorem max?_lengths_empty (ops : List (Op α)) :
    ((empty : Chain α).lengths ops).max? = some ((empty : Chain α).after ops).arena.slots.size :=
  congrArg some (holds_empty.size_slots_after ops).symm

end RespCache.Chain
