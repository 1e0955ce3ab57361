import RespCache.Cache.Validation
import RespCache.Proofs.Cache.Run
import RespCache.Proofs.Chain.Validation

/-!
Index and chain of a cache stay in step. In every state of a run from a new cache on, each of the
two leads to what the other one holds (`Consistent`), no operation finds them apart, and the check
of both passes (`consistent_trace_ofCapacity`).
-/

namespace RespCache.Cache

universe u v

variable {κ : Type u} {ν : Type v} [BEq κ] [Hashable κ]

/-- Every node's key is in the index with this very node, the index leads nowhere else, no key
stands at two nodes, and there are no more nodes than the capacity. -/
structure Paired (c : Cache κ ν) : Prop where
  distinct : c.order.nodes.Pairwise fun m n => (m.2.key == n.2.key) = false
  indexed : ∀ h entry, (h, entry) ∈ c.order.nodes → c.index[entry.key]? = some h
  linked : ∀ key h, c.index[key]? = some h →
    ∃ entry, (h, entry) ∈ c.order.nodes ∧ (entry.key == key) = true
  size : c.index.size = c.order.nodes.length
  length_le : c.order.nodes.length ≤ c.capacity

/-- Index and chain are in bijection, the handles lead to the nodes, and the chain counts them. -/
structure Consistent (c : Cache κ ν) : Prop extends c.Paired where
  found : ∀ h entry, (h, entry) ∈ c.order.nodes → c.order.get? h = some entry
  length : c.order.length = c.order.nodes.length

theorem forM_eq_ok_iff {α : Type u} {ε : Type v} {f : α → Except ε Unit} {l : List α} :
    l.forM f = .ok () ↔ ∀ x ∈ l, f x = .ok () := by
  induction l with
  | nil => simp [pure, Except.pure]
  | cons x l ih =>
      rw [List.forall_mem_cons, ← ih]
      show (f x >>= fun _ => l.forM f) = .ok () ↔ f x = .ok () ∧ l.forM f = .ok ()
      cases f x <;> simp [bind, Except.bind]

namespace Keeps

variable [EquivBEq κ] {c : Cache κ ν} {s : Segment (Entry κ ν)}

theorem paired (hc : c.Keeps s) : c.Paired where
  distinct := by
    rw [hc.order.nodes_eq]
    exact List.pairwise_map.mp hc.distinct
  indexed h entry hmem := by
    rw [hc.order.nodes_eq] at hmem
    exact (hc.index entry.key h).mpr ⟨entry.key, List.mem_map_of_mem hmem, BEq.rfl⟩
  linked key h hindex := by
    obtain ⟨key', hplace, hkey⟩ := (hc.index key h).mp hindex
    obtain ⟨⟨g, entry⟩, hmem, hsame⟩ := List.mem_map.mp hplace
    cases hsame
    rw [hc.order.nodes_eq]
    exact ⟨entry, hmem, hkey⟩
  size := by rw [hc.order.nodes_eq, hc.size]
  length_le := by
    rw [hc.order.nodes_eq]
    exact hc.length_le

theorem consistent (hc : c.Keeps s) : c.Consistent where
  toPaired := hc.paired
  found h entry hmem := by
    rw [hc.order.nodes_eq] at hmem
    exact hc.order.get?_eq_some_iff.mpr hmem
  length := by rw [hc.order.nodes_eq, hc.order.length]

theorem checkIndexed_eq (hc : c.Keeps s) {key : κ} {h : Handle} (hindex : c.index[key]? = some h) :
    c.checkIndexed key h = .ok () := by
  obtain ⟨entry, hmem, hkey⟩ := hc.paired.linked key h hindex
  rw [checkIndexed, hc.consistent.found h entry hmem]
  exact if_pos hkey

variable [LawfulHashable κ]

theorem validate_eq (hc : c.Keeps s) : c.validate = .ok () := by
  have hsizes : c.order.length = c.index.size := by rw [hc.order.length, hc.size]
  have hcapacity : ¬c.capacity < c.index.size := by
    rw [hc.size]
    exact Nat.not_lt_of_le hc.length_le
  have hindex : c.index.toList.forM (Function.uncurry c.checkIndexed) = .ok () := by
    apply forM_eq_ok_iff.mpr
    rintro ⟨key, h⟩ hmem
    exact hc.checkIndexed_eq
      (Std.HashMap.mem_toList_iff_getKey?_eq_some_and_getElem?_eq_some.mp hmem).2
  simp only [validate, hc.order.validate_eq, hsizes, hcapacity, ne_eq, not_true_eq_false, if_false]
  exact hindex

end Keeps

/-- A cache made for a positive capacity keeps that capacity and stays consistent whatever the
operations are; none of them faults, and the check never finds anything. -/
theorem consistent_trace_ofCapacity [EquivBEq κ] [LawfulHashable κ] {capacity : Nat}
    (hpos : 0 < capacity) (ops : List (Op κ ν)) :
    ∃ created outcomes, ofCapacity capacity = .ok created ∧
      created.cache.trace ops = .ok outcomes ∧
      ∀ c ∈ created.cache :: outcomes.map Outcome.cache,
        c.capacity = capacity ∧ c.Consistent ∧ c.validate = .ok () := by
  have hsound : (⟨∅, .empty, capacity⟩ : Cache κ ν).Sound := sound_empty hpos
  obtain ⟨outcomes, htrace, hsounds⟩ := hsound.exists_trace ops
  refine ⟨_, outcomes, if_neg (Nat.ne_of_gt hpos), htrace, ?_⟩
  intro c hc
  rcases List.mem_cons.mp hc with rfl | hc
  · exact ⟨rfl, (keeps_empty capacity).consistent, (keeps_empty capacity).validate_eq⟩
  · obtain ⟨o, ho, rfl⟩ := List.mem_map.mp hc
    obtain ⟨⟨-, s, hs⟩, hcapacity⟩ := hsounds o ho
    exact ⟨hcapacity, hs.consistent, hs.validate_eq⟩

/-- The one slot of a cache for one entry is used again by another key, and again after all
entries are dropped. -/
theorem consistent_trace_ofCapacity_one : 0 < 1 ∧
    ∃ (created : Outcome Nat Nat Unit) (outcomes : List (Outcome Nat Nat (Answer Nat))),
      ofCapacity 1 = .ok created ∧
      created.cache.trace [.set 1 10, .set 2 20, .get 1, .get 2, .clear, .set 1 30, .contains 1] =
        .ok outcomes ∧
      outcomes.map (fun o => (o.value, o.cache.toList)) =
        [(.flag false, [(1, 10)]), (.flag false, [(2, 20)]), (.value none, [(2, 20)]),
          (.value (some 20), [(2, 20)]), (.done, []), (.flag false, [(1, 30)]),
          (.flag true, [(1, 30)])] ∧
      ∀ c ∈ created.cache :: outcomes.map Outcome.cache,
        c.capacity = 1 ∧ c.Consistent ∧ c.validate = .ok () := by
  let ops : List (Op Nat Nat) :=
    [.set 1 10, .set 2 20, .get 1, .get 2, .clear, .set 1 30, .contains 1]
  obtain ⟨created, outcomes, hmade, htrace, hstates⟩ :=
    consistent_trace_ofCapacity (by decide : 0 < 1) ops
  exact ⟨by decide, created, outcomes, hmade, htrace, toList_of_trace hmade htrace, hstates⟩

end RespCache.Cache
