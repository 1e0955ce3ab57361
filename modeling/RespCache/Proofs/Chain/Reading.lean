import RespCache.Chain.Cursor
import RespCache.Proofs.Chain.Nodes
import RespCache.Proofs.Chain.Plain

/-!
What can be read off a chain: its ends, the neighbours and payloads of its nodes, and the payloads
that a walk gives out. All of it is read off the list of its nodes (`Holds.shows`). Neighbours stand
beside each other in that list, and the walk goes through it from the front.
-/

namespace RespCache

open Segment

universe u

variable {α : Type u}

/-- The place after so many calls of `next`. -/
def Cursor.advance (k : Cursor α) : Nat → Cursor α
  | 0 => k
  | n + 1 => (k.advance n).next.2

namespace Segment

theorem first_eq_head? (s : Segment α) : first none s = (handles s).head? := by
  cases s <;> rfl

theorem last_eq_getLast? (s : Segment α) : last none s = (handles s).getLast? := by
  rcases List.eq_nil_or_concat s with rfl | ⟨t, ⟨h, x⟩, rfl⟩
  · rfl
  · rw [List.concat_eq_append, last_concat, handles_append]
    simp

/-- Two handles that stand beside each other cut a segment in two between them. -/
theorem exists_append_of_infix {s : Segment α} {g h : Handle} (hbeside : [g, h] <:+: handles s) :
    ∃ t x y u, s = (t ++ [(g, x)]) ++ (h, y) :: u := by
  obtain ⟨before, after, hs⟩ := hbeside
  rw [List.append_assoc] at hs
  obtain ⟨t, rest, rfl, -, hrest⟩ := List.map_eq_append_iff.mp hs.symm
  obtain ⟨p, rest', rfl, rfl, htail⟩ := List.map_eq_cons_iff.mp hrest
  obtain ⟨q, u, rfl, rfl, -⟩ := List.map_eq_cons_iff.mp htail
  exact ⟨t, p.2, q.2, u, by simp⟩

end Segment

namespace Chain

/-- From outside the chain is the list `s`. -/
structure Shows (c : Chain α) (s : Segment α) : Prop where
  nodup : (handles s).Nodup
  length : c.length = s.length
  isEmpty : c.isEmpty = s.isEmpty
  head : c.head = (handles s).head?
  tail : c.tail = (handles s).getLast?
  contains : ∀ h, c.contains h = true ↔ h ∈ handles s
  get? : ∀ h, c.get? h = s.lookup h
  next? : ∀ h g, c.next? h = some g ↔ [h, g] <:+: handles s
  prev? : ∀ h g, c.prev? h = some g ↔ [g, h] <:+: handles s
  iter : ∀ i, (c.cursor.advance i).next.1 = (s.map Prod.snd)[i]?

namespace Holds

variable {c : Chain α} {s t loose : Segment α}

theorem next?_eq_some_iff (hc : c.Holds s []) {h g : Handle} :
    c.next? h = some g ↔ [h, g] <:+: handles s := by
  constructor
  · intro hnext
    obtain ⟨n, hn, hg⟩ := Option.bind_eq_some_iff.mp hnext
    have hmem : h ∈ handles s := hc.contains_iff.mp (by rw [Chain.contains, hn]; rfl)
    obtain ⟨t, x, u, rfl⟩ := exists_append_of_mem_handles hmem
    rw [hc.get?_node] at hn
    cases hn
    cases u with
    | nil => cases hg
    | cons p u =>
        cases hg
        exact ⟨handles t, handles u, by simp [handles]⟩
  · intro hbeside
    obtain ⟨t, x, y, u, rfl⟩ := exists_append_of_infix hbeside
    rw [List.append_assoc, List.singleton_append] at hc
    rw [Chain.next?, hc.get?_node]
    rfl

theorem prev?_eq_some_iff (hc : c.Holds s []) {h g : Handle} :
    c.prev? h = some g ↔ [g, h] <:+: handles s := by
  constructor
  · intro hprev
    obtain ⟨n, hn, hg⟩ := Option.bind_eq_some_iff.mp hprev
    have hmem : h ∈ handles s := hc.contains_iff.mp (by rw [Chain.contains, hn]; rfl)
    obtain ⟨t, x, u, rfl⟩ := exists_append_of_mem_handles hmem
    rw [hc.get?_node] at hn
    cases hn
    rcases List.eq_nil_or_concat t with rfl | ⟨t, ⟨g', y⟩, rfl⟩
    · cases hg
    · rw [List.concat_eq_append] at hg ⊢
      rw [last_concat] at hg
      cases hg
      exact ⟨handles t, handles u, by simp⟩
  · intro hbeside
    obtain ⟨t, x, y, u, rfl⟩ := exists_append_of_infix hbeside
    rw [Chain.prev?, hc.get?_node]
    exact last_concat none t g x

theorem next_cursor (hc : c.Holds (s ++ t) loose) :
    Cursor.next ⟨c, first none t, t.length⟩ =
      ((t.map Prod.snd).head?, ⟨c, first none t.tail, t.tail.length⟩) := by
  cases t with
  | nil => rfl
  | cons p t =>
      obtain ⟨h, x⟩ := p
      simp only [Cursor.next, first_cons, hc.get?_node]
      rfl

/-- A walk stands in front of the nodes that it has not given out. -/
theorem advance_cursor (hc : c.Holds s loose) (n : Nat) :
    c.cursor.advance n = ⟨c, first none (s.drop n), (s.drop n).length⟩ := by
  induction n with
  | zero => rw [Cursor.advance, Chain.cursor, hc.head, hc.length, List.drop_zero]
  | succ n ih =>
      have hcut : c.Holds (s.take n ++ s.drop n) loose := by rwa [List.take_append_drop]
      rw [Cursor.advance, ih, hcut.next_cursor, List.tail_drop]

theorem next_advance_cursor (hc : c.Holds s loose) (n : Nat) :
    (c.cursor.advance n).next.1 = (s.map Prod.snd)[n]? := by
  have hcut : c.Holds (s.take n ++ s.drop n) loose := by rwa [List.take_append_drop]
  rw [hc.advance_cursor, hcut.next_cursor, List.map_drop, List.head?_drop]

theorem get?_eq_lookup (hc : c.Holds s []) (h : Handle) : c.get? h = s.lookup h := by
  by_cases hmem : h ∈ handles s
  · obtain ⟨t, x, u, rfl⟩ := exists_append_of_mem_handles hmem
    rw [lookup_node hc.not_mem_handles_before]
    exact hc.get?_eq_some_iff.mpr (by simp)
  · rw [lookup_of_not_mem hmem, Chain.get?, hc.get?_eq_none_iff.mpr hmem]
    rfl

theorem shows (hc : c.Holds s []) : c.Shows s where
  nodup := hc.nodup_handles
  length := hc.length
  isEmpty := by
    rw [Chain.isEmpty, hc.length]
    cases s <;> rfl
  head := by rw [hc.head, first_eq_head?]
  tail := by rw [hc.tail, last_eq_getLast?]
  contains _ := hc.contains_iff
  get? := hc.get?_eq_lookup
  next? _ _ := hc.next?_eq_some_iff
  prev? _ _ := hc.prev?_eq_some_iff
  iter := hc.next_advance_cursor

end Holds

end Chain

end RespCache
