import RespCache.Chain.Validation
import RespCache.Proofs.Chain.Nodes

/-!
A chain that consists of its nodes passes its check (`Holds.validate_eq`). The walk meets the nodes in
order and uses up the budget, which is their number; that every slot is linked or free is counted.
-/

namespace RespCache.Chain.Holds

open Segment

universe u

variable {α : Type u} {c : Chain α} {s t loose : Segment α}

/-- The occupied slots are those of the nodes. -/
theorem mem_indices_iff (hc : c.Holds s []) {i : Nat} :
    i ∈ (handles s).map Handle.index ↔ c.arena.Occupied i := by
  rw [List.mem_map]
  constructor
  · rintro ⟨h, hmem, rfl⟩
    obtain ⟨n, hn⟩ := hc.exists_get?_of_mem hmem
    exact ⟨_, n, (Arena.get?_eq_some_iff _).mp hn⟩
  · rintro ⟨generation, n, hslot⟩
    have hn : c.arena.get? ⟨i, generation⟩ = some n := (Arena.get?_eq_some_iff _).mpr hslot
    refine ⟨⟨i, generation⟩, hc.contains_iff.mp ?_, rfl⟩
    rw [Chain.contains, hn]
    rfl

theorem occupied_eq (hc : c.Holds s []) : c.arena.occupied = s.length := by
  rw [← Arena.length_eq_occupied hc.nodup_indices fun _ => hc.mem_indices_iff, List.length_map,
    handles, List.length_map]

/-- The walk over the nodes `t` behind `s` ends at the last of them. -/
theorem walk_eq (hc : c.Holds (s ++ t) loose) (budget : Nat) :
    c.walk (t.length + budget) (last none s) (first none t) = .ok (last none (s ++ t), budget) := by
  induction t generalizing s with
  | nil => simp [walk]
  | cons p t ih =>
      obtain ⟨h, x⟩ := p
      have hrest : c.Holds ((s ++ [(h, x)]) ++ t) loose := by simpa using hc
      have hwalk := ih hrest
      rw [last_concat, List.append_assoc, List.singleton_append] at hwalk
      rw [first_cons, List.length_cons, Nat.succ_add, walk, hc.get?_node]
      simpa using hwalk

theorem checkEnds_eq (hc : c.Holds s loose) : c.checkEnds = .ok () := by
  rw [checkEnds, hc.head, hc.tail, hc.length]
  rcases List.eq_nil_or_concat s with rfl | ⟨t, ⟨h, x⟩, rfl⟩
  · rfl
  · rw [List.concat_eq_append, last_concat]
    cases t <;> rfl

theorem validate_eq (hc : c.Holds s []) : c.validate = .ok () := by
  have hwalk : c.walk c.length none c.head = .ok (c.tail, 0) := by
    have hwhole : c.Holds ([] ++ s) [] := hc
    rw [hc.length, hc.head, hc.tail]
    exact hwhole.walk_eq 0
  have hoccupied : c.arena.occupied = c.length := by rw [hc.occupied_eq, hc.length]
  have hslots := hc.arena.occupied_add_length_free
  simp only [validate, hc.checkEnds_eq, hwalk, hoccupied, bind, Except.bind]
  rw [hoccupied] at hslots
  simp [hslots, pure, Except.pure]

end RespCache.Chain.Holds
