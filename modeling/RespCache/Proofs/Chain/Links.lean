import Mathlib.Data.List.Induction
import RespCache.Proofs.Chain.Run
import RespCache.Proofs.Chain.Validation

/-!
The links, the free list and the length of a chain after any run of operations. Followed from either
end, the links lead once through every occupied slot; each of them names a node by its slot's present
generation; the free list names the slots that are left over (`intact_after`). So a run never counts
the length down below zero, never looks for a slot that is not there, and never puts a new node in
the place of another one. All of it is read off the list of nodes that the chain consists of.
-/

namespace RespCache.Chain

open Segment

universe u

variable {α : Type u}

/-- Following `link` from `start` on meets the handles of `path` one after the other and then ends.
-/
inductive Follows (link : Handle → Option Handle) : Option Handle → List Handle → Prop where
  | done : Follows link none []
  | step {h : Handle} {path : List Handle} :
      Follows link (link h) path → Follows link (some h) (h :: path)

/-- Following `link` from `start` on ends, and leads through each occupied slot once and through no
other one. -/
def Visits (c : Chain α) (link : Handle → Option Handle) (start : Option Handle) : Prop :=
  ∃ path, Follows link start path ∧ (path.map Handle.index).Nodup ∧
    ∀ i, i ∈ path.map Handle.index ↔ c.arena.Occupied i

/-- The handle stands at an end of the chain or in a link of one of its nodes. -/
def Links (c : Chain α) (h : Handle) : Prop :=
  c.head = some h ∨ c.tail = some h ∨
    ∃ (i : Nat) (generation : UInt32) (n : Node α),
      c.arena.slots[i]? = some ⟨generation, some n⟩ ∧ (n.prev = some h ∨ n.next = some h)

/-- Links, free list and length fit together. -/
structure Intact (c : Chain α) : Prop where
  free_nodup : c.arena.free.Nodup
  mem_free_iff : ∀ i, i ∈ c.arena.free ↔ c.arena.Vacant i
  forward : c.Visits c.next? c.head
  backward : c.Visits c.prev? c.tail
  /-- a link names a node by the present generation of its slot -/
  link : ∀ h, c.Links h → ∃ n, c.arena.slots[h.index]? = some ⟨h.generation, some n⟩
  inverse : ∀ g h, c.next? g = some h ↔ c.prev? h = some g
  length : c.length = c.arena.occupied

/-- No operation on the chain goes wrong. -/
structure Safe (c : Chain α) : Prop where
  /-- where the length is counted down it is positive -/
  length_detach : ∀ h d, c.detach h = some d → d.length + 1 = c.length
  /-- the slot of a node that came loose is there to be vacated -/
  index_lt : ∀ h d, c.detach h = some d → h.index < d.arena.slots.size
  free_lt : ∀ i ∈ c.arena.free, i < c.arena.slots.size
  /-- a new node is put into a slot that holds none -/
  alloc_vacant : ∀ x, ¬c.arena.Occupied (c.alloc x).1.index
  get?_push : ∀ x h y, c.get? h = some y →
    (c.pushFront x).2.get? h = some y ∧ (c.pushBack x).2.get? h = some y
  validate : c.validate = .ok ()

namespace Holds

variable {c : Chain α} {s t : Segment α}

theorem follows_next (hc : c.Holds (s ++ t) []) : Follows c.next? (first none t) (handles t) := by
  induction t generalizing s with
  | nil => exact .done
  | cons p t ih =>
      obtain ⟨h, x⟩ := p
      have hrest : c.Holds ((s ++ [(h, x)]) ++ t) [] := by simpa using hc
      have hnext : c.next? h = first none t := by
        rw [Chain.next?, hc.get?_node]
        rfl
      exact .step (hnext ▸ ih hrest)

theorem follows_prev (hc : c.Holds (s ++ t) []) :
    Follows c.prev? (last none s) (handles s).reverse := by
  induction s using List.reverseRecOn generalizing t with
  | nil => exact .done
  | append_singleton s p ih =>
      obtain ⟨h, x⟩ := p
      have hnode : c.Holds (s ++ (h, x) :: t) [] := by simpa using hc
      have hprev : c.prev? h = last none s := by
        rw [Chain.prev?, hnode.get?_node]
        rfl
      rw [last_concat, handles_append, List.reverse_append]
      exact .step (hprev ▸ ih hnode)

theorem visits_next (hc : c.Holds s []) : c.Visits c.next? c.head := by
  have hwhole : c.Holds ([] ++ s) [] := hc
  exact ⟨handles s, hc.head ▸ hwhole.follows_next, hc.nodup_indices, fun _ => hc.mem_indices_iff⟩

theorem visits_prev (hc : c.Holds s []) : c.Visits c.prev? c.tail := by
  have hwhole : c.Holds (s ++ []) [] := by simpa using hc
  refine ⟨(handles s).reverse, hc.tail ▸ hwhole.follows_prev, ?_, fun i => ?_⟩
  · rw [List.map_reverse, List.nodup_reverse]
    exact hc.nodup_indices
  · rw [List.map_reverse, List.mem_reverse]
    exact hc.mem_indices_iff

/-- Every link leads to a node. -/
theorem mem_handles_of_links (hc : c.Holds s []) {h : Handle} (hlink : c.Links h) :
    h ∈ handles s := by
  rcases hlink with hhead | htail | ⟨i, generation, n, hslot, hn⟩
  · exact mem_handles_of_first (hc.head.symm.trans hhead)
  · exact mem_handles_of_last (hc.tail.symm.trans htail)
  · have hget : c.arena.get? ⟨i, generation⟩ = some n := (Arena.get?_eq_some_iff _).mpr hslot
    have hmem : (⟨i, generation⟩ : Handle) ∈ handles s := by
      apply hc.contains_iff.mp
      rw [Chain.contains, hget]
      rfl
    obtain ⟨t, x, u, rfl⟩ := exists_append_of_mem_handles hmem
    rw [hc.get?_node] at hget
    cases hget
    rw [handles_append, handles_cons]
    rcases hn with hprev | hnext
    · exact List.mem_append_left _ (mem_handles_of_last hprev)
    · exact List.mem_append_right _ (List.mem_cons_of_mem _ (mem_handles_of_first hnext))

theorem intact (hc : c.Holds s []) : c.Intact where
  free_nodup := hc.arena.nodup
  mem_free_iff := hc.arena.mem_free_iff
  forward := hc.visits_next
  backward := hc.visits_prev
  link h hlink := by
    obtain ⟨n, hn⟩ := hc.exists_get?_of_mem (hc.mem_handles_of_links hlink)
    exact ⟨n, (Arena.get?_eq_some_iff _).mp hn⟩
  inverse _ _ := hc.next?_eq_some_iff.trans hc.prev?_eq_some_iff.symm
  length := hc.length.trans hc.occupied_eq.symm

/-- Only the handle of a node comes loose. -/
theorem exists_append_of_detach (hc : c.Holds s []) {h : Handle} {d : Chain α}
    (hd : c.detach h = some d) :
    ∃ t x u, s = t ++ (h, x) :: u ∧ d.Holds (t ++ u) [(h, x)] := by
  have hmem : h ∈ handles s := by
    by_contra hmem
    rw [Chain.detach, hc.get?_eq_none_iff.mpr hmem] at hd
    cases hd
  obtain ⟨t, x, u, rfl⟩ := exists_append_of_mem_handles hmem
  obtain ⟨d', hd', hloose⟩ := hc.detach
  cases hd.symm.trans hd'
  exact ⟨t, x, u, rfl, hloose⟩

theorem get?_push (hc : c.Holds s []) (x : α) {h : Handle} {y : α} (hy : c.get? h = some y) :
    (c.pushFront x).2.get? h = some y ∧ (c.pushBack x).2.get? h = some y := by
  have hmem : (h, y) ∈ s := hc.get?_eq_some_iff.mp hy
  constructor
  · exact (hc.pushFront x).get?_eq_some_iff.mpr (List.mem_cons_of_mem _ hmem)
  · exact (hc.pushBack x).get?_eq_some_iff.mpr (List.mem_append_left _ hmem)

theorem safe (hc : c.Holds s []) : c.Safe where
  length_detach h d hd := by
    obtain ⟨t, x, u, rfl, hloose⟩ := hc.exists_append_of_detach hd
    rw [hc.length, hloose.length]
    simp [Nat.add_assoc]
  index_lt h d hd := by
    obtain ⟨t, x, u, -, hloose⟩ := hc.exists_append_of_detach hd
    exact d.arena.index_lt_of_get? hloose.get?_loose
  free_lt i hi := by
    obtain ⟨generation, hslot⟩ := (hc.arena.mem_free_iff i).mp hi
    exact (Array.getElem?_eq_some_iff.mp hslot).1
  alloc_vacant x := hc.arena.not_occupied_insert _
  get?_push x _ _ hy := hc.get?_push x hy
  validate := hc.validate_eq

end Holds

/-- Whatever operations are carried out from the empty chain on, and whatever handles they are
given, links, free list and length fit together, and the next operation goes well. -/
theorem intact_after (ops : List (Op α)) :
    ((empty : Chain α).after ops).Intact ∧ ((empty : Chain α).after ops).Safe := by
  obtain ⟨s, hs⟩ := holds_empty.exists_after ops
  exact ⟨hs.intact, hs.safe⟩

end RespCache.Chain
