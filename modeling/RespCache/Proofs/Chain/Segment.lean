import Mathlib.Data.List.Nodup
import RespCache.Chain

/-!
The nodes that a stretch of a chain consists of. A segment lists handles and payloads in order; put
between two neighbours it fixes the node behind each of its handles (`Segment.node?`). Segments
compose by append, and a segment whose neighbour changes differs in the one node next to it
(`Segment.node?_next`, `Segment.node?_prev`): these are the edits that linking and unlinking make.
-/

namespace RespCache

universe u

/-- Handles and payloads of consecutive nodes. -/
abbrev Segment (α : Type u) := List (Handle × α)

namespace Segment

variable {α : Type u}

def handles (s : Segment α) : List Handle := s.map Prod.fst

@[simp] theorem handles_nil : handles ([] : Segment α) = [] := rfl

@[simp] theorem handles_cons (h : Handle) (x : α) (s : Segment α) :
    handles ((h, x) :: s) = h :: handles s := rfl

@[simp] theorem handles_append (s t : Segment α) : handles (s ++ t) = handles s ++ handles t :=
  List.map_append

/-- The first handle of a segment, or what follows the segment if it is empty. -/
def first (next : Option Handle) : Segment α → Option Handle
  | [] => next
  | (h, _) :: _ => some h

/-- The last handle of a segment, or what precedes the segment if it is empty. -/
def last (prev : Option Handle) : Segment α → Option Handle
  | [] => prev
  | (h, _) :: s => last (some h) s

@[simp] theorem first_nil (next : Option Handle) : first next ([] : Segment α) = next := rfl

@[simp] theorem first_cons (next : Option Handle) (h : Handle) (x : α) (s : Segment α) :
    first next ((h, x) :: s) = some h := rfl

@[simp] theorem last_nil (prev : Option Handle) : last prev ([] : Segment α) = prev := rfl

@[simp] theorem last_cons (prev : Option Handle) (h : Handle) (x : α) (s : Segment α) :
    last prev ((h, x) :: s) = last (some h) s := rfl

theorem first_append (next : Option Handle) (s t : Segment α) :
    first next (s ++ t) = first (first next t) s := by
  cases s <;> rfl

theorem last_append (prev : Option Handle) (s t : Segment α) :
    last prev (s ++ t) = last (last prev s) t := by
  induction s generalizing prev with
  | nil => rfl
  | cons p s ih => exact ih (some p.1)

@[simp] theorem last_concat (prev : Option Handle) (s : Segment α) (h : Handle) (x : α) :
    last prev (s ++ [(h, x)]) = some h := by
  rw [last_append]
  rfl

theorem last_eq_none_iff {s : Segment α} : last none s = none ↔ s = [] := by
  rcases List.eq_nil_or_concat s with rfl | ⟨t, ⟨h, x⟩, rfl⟩
  · simp
  · rw [List.concat_eq_append, last_concat]
    simp

theorem mem_handles_of_first {s : Segment α} {h : Handle} (hfirst : first none s = some h) :
    h ∈ handles s := by
  cases s with
  | nil => cases hfirst
  | cons p s =>
      cases hfirst
      exact List.mem_cons_self

theorem mem_handles_of_last {s : Segment α} {h : Handle} (hlast : last none s = some h) :
    h ∈ handles s := by
  rcases List.eq_nil_or_concat s with rfl | ⟨t, ⟨g, x⟩, rfl⟩
  · cases hlast
  · rw [List.concat_eq_append, last_concat] at hlast
    cases hlast
    simp

/-- The node behind a handle of a segment that lies between `prev` and `next`. -/
def node? (prev next : Option Handle) : Segment α → Handle → Option (Node α)
  | [], _ => none
  | (h, x) :: s, g => if g = h then some ⟨x, prev, first next s⟩ else node? (some h) next s g

@[simp] theorem node?_nil (prev next : Option Handle) (g : Handle) :
    node? prev next ([] : Segment α) g = none := rfl

theorem node?_cons (prev next : Option Handle) (h : Handle) (x : α) (s : Segment α) (g : Handle) :
    node? prev next ((h, x) :: s) g =
      if g = h then some ⟨x, prev, first next s⟩ else node? (some h) next s g := rfl

@[simp] theorem node?_cons_self (prev next : Option Handle) (h : Handle) (x : α) (s : Segment α) :
    node? prev next ((h, x) :: s) h = some ⟨x, prev, first next s⟩ := if_pos rfl

theorem node?_eq_none_iff {prev next : Option Handle} {s : Segment α} {g : Handle} :
    node? prev next s g = none ↔ g ∉ handles s := by
  induction s generalizing prev with
  | nil => simp
  | cons p s ih =>
      obtain ⟨h, x⟩ := p
      rw [node?_cons]
      by_cases hg : g = h
      · simp [hg]
      · simp [hg, ih]

theorem node?_append (prev next : Option Handle) (s t : Segment α) (g : Handle) :
    node? prev next (s ++ t) g =
      (node? prev (first next t) s g).or (node? (last prev s) next t g) := by
  induction s generalizing prev with
  | nil => rfl
  | cons p s ih =>
      obtain ⟨h, x⟩ := p
      rw [List.cons_append, node?_cons, node?_cons, first_append]
      by_cases hg : g = h
      · simp [hg]
      · simp [hg, ih]

/-- What follows a segment is the affair of its last node. -/
theorem node?_next {s : Segment α} (hnodup : (handles s).Nodup) (prev next next' : Option Handle)
    (g : Handle) :
    node? prev next' s g =
      if last none s = some g then (node? prev next s g).map fun n => { n with next := next' }
      else node? prev next s g := by
  rcases List.eq_nil_or_concat s with rfl | ⟨t, ⟨h, x⟩, rfl⟩
  · simp
  · rw [List.concat_eq_append] at hnodup ⊢
    rw [handles_append] at hnodup
    have hnotMem : h ∉ handles t := fun hmem =>
      List.disjoint_of_nodup_append hnodup hmem (by simp)
    rw [last_concat, node?_append, node?_append]
    by_cases hg : h = g
    · subst hg
      have htail : ∀ next : Option Handle, node? prev next t h = none := fun _ =>
        node?_eq_none_iff.mpr hnotMem
      simp [htail]
    · simp [hg, Ne.symm hg, node?_cons]

/-- What precedes a segment is the affair of its first node. -/
theorem node?_prev (s : Segment α) (prev prev' next : Option Handle) (g : Handle) :
    node? prev' next s g =
      if first none s = some g then (node? prev next s g).map fun n => { n with prev := prev' }
      else node? prev next s g := by
  cases s with
  | nil => simp
  | cons p s =>
      obtain ⟨h, x⟩ := p
      rw [node?_cons, node?_cons, first_cons]
      by_cases hg : g = h
      · simp [hg]
      · simp [hg, Ne.symm hg]

/-- Joining the two sides of a node: the last node before it and the first one after it change. -/
theorem node?_join {s t : Segment α} {h : Handle} {x : α}
    (hnodup : (handles (s ++ (h, x) :: t)).Nodup) {g : Handle} (hg : g ≠ h) :
    node? none none (s ++ t) g =
      let before := node? none none (s ++ (h, x) :: t) g
      let after := if last none s = some g
        then before.map fun n => { n with next := first none t } else before
      if first none t = some g
        then after.map fun n => { n with prev := last none s } else after := by
  rw [handles_append, handles_cons] at hnodup
  have hdisjoint := List.disjoint_of_nodup_append hnodup
  rw [node?_append, node?_append, node?_cons, if_neg hg, first_cons,
    node?_next hnodup.of_append_left none (some h) (first none t),
    node?_prev t (some h) (last none s) none]
  by_cases hs : g ∈ handles s
  · have ht : g ∉ handles t := fun hmem => hdisjoint hs (List.mem_cons_of_mem _ hmem)
    have hfirst : first none t ≠ some g := fun hfirst => ht (mem_handles_of_first hfirst)
    simp [node?_eq_none_iff.mpr ht, hfirst]
  · have hlast : last none s ≠ some g := fun hlast => hs (mem_handles_of_last hlast)
    simp [node?_eq_none_iff.mpr hs, hlast]

/-- A payload is the affair of its own node. -/
theorem node?_payload {s t : Segment α} {h : Handle} {x : α} (hs : h ∉ handles s) (f : α → α)
    (g : Handle) :
    node? none none (s ++ (h, f x) :: t) g =
      if g = h
        then (node? none none (s ++ (h, x) :: t) g).map fun n => { n with payload := f n.payload }
      else node? none none (s ++ (h, x) :: t) g := by
  rw [node?_append, node?_append, node?_cons, node?_cons, first_cons, first_cons]
  by_cases hg : g = h
  · subst hg
    simp [node?_eq_none_iff.mpr hs]
  · simp [hg]

theorem mem_of_node? {prev next : Option Handle} {s : Segment α} {g : Handle} {n : Node α}
    (hn : node? prev next s g = some n) : (g, n.payload) ∈ s := by
  induction s generalizing prev with
  | nil => cases hn
  | cons p s ih =>
      obtain ⟨h, x⟩ := p
      rw [node?_cons] at hn
      split at hn
      case isTrue hg =>
        cases hn
        rw [hg]
        exact List.mem_cons_self
      case isFalse => exact List.mem_cons_of_mem _ (ih hn)

/-- A handle that occurs in a segment cuts it in two. -/
theorem exists_append_of_mem_handles {s : Segment α} {h : Handle} (hmem : h ∈ handles s) :
    ∃ t x u, s = t ++ (h, x) :: u := by
  obtain ⟨⟨g, x⟩, hp, rfl⟩ := List.mem_map.mp hmem
  obtain ⟨t, u, rfl⟩ := List.append_of_mem hp
  exact ⟨t, x, u, rfl⟩

end Segment

end RespCache
