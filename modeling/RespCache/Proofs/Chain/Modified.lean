import RespCache.Proofs.Chain.Nodes

/-!
What the operations of a chain do to its arena. Parting a node from its neighbours, attaching one,
moving one to the head and changing a payload change values in the arena and leave each in its slot
(`Arena.Modified`). Taking a node out changes values and then empties the node's slot
(`exists_erase_of_remove`).
-/

namespace RespCache.Chain

universe u

variable {α : Type u}

theorem modified_detach {c d : Chain α} {h : Handle} (hd : c.detach h = some d) :
    c.arena.Modified d.arena := by
  cases hn : c.arena.get? h with
  | none => simp [detach, hn] at hd
  | some n =>
      rw [detach_of_get? hn] at hd
      cases hd
      have hjoined := (c.modified_setNext n.prev n.next).trans (modified_setPrev _ n.next n.prev)
      exact hjoined.trans (modified_setLinks _ h none none)

theorem modified_attachFront (c : Chain α) (h : Handle) :
    c.arena.Modified (c.attachFront h).arena := by
  unfold attachFront
  split
  · exact (c.modified_setLinks h none c.head).trans (modified_setPrev _ c.head (some h))
  · exact .refl

theorem modified_attachBack (c : Chain α) (h : Handle) :
    c.arena.Modified (c.attachBack h).arena := by
  unfold attachBack
  split
  · exact (c.modified_setLinks h c.tail none).trans (modified_setNext _ c.tail (some h))
  · exact .refl

theorem modified_moveToFront {c c' : Chain α} {h : Handle} (hc' : c.moveToFront h = some c') :
    c.arena.Modified c'.arena := by
  unfold moveToFront at hc'
  split_ifs at hc' with hcontains hhead
  · cases hc'
    exact .refl
  · obtain ⟨d, hd, rfl⟩ := Option.map_eq_some_iff.mp hc'
    exact (modified_detach hd).trans (d.modified_attachFront h)

theorem modified_modify? {c c' : Chain α} {h : Handle} {f : α → α}
    (hc' : c.modify? h f = some c') : c.arena.Modified c'.arena := by
  obtain ⟨arena, head, tail, length⟩ := c
  unfold modify? at hc'
  split_ifs at hc' with hcontains
  cases hc'
  exact .modify h _ .refl

theorem exists_erase_of_remove {c c' : Chain α} {h : Handle} {x : α}
    (hc' : c.remove h = some (x, c')) :
    ∃ arena n, c.arena.Modified arena ∧ arena.erase h = some (n, c'.arena) := by
  unfold remove at hc'
  split at hc'
  case h_1 => cases hc'
  case h_2 arena head tail length hd =>
    split at hc'
    case h_1 => cases hc'
    case h_2 n arena' ha =>
      cases hc'
      exact ⟨arena, n, modified_detach hd, ha⟩

end RespCache.Chain
