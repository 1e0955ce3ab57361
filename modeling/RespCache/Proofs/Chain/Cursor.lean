import RespCache.Proofs.Chain.Links

/-!
Walking a chain from its head, call by call. The cursor counts down a number that it took from the
chain's length and follows links until there is none; that the two run out together is a fact about
the whole chain (`Holds.delivers`). So in a chain that operations have built, a walk gives the
payloads in the order of the links, then nothing any more, and tells at every point how many are
still to come (`delivers_after`).
-/

namespace RespCache

open Segment

universe u

variable {α : Type u}

/-- What a caller of `next` can rely on, with `xs` for the payloads that the walk is to give. -/
structure Cursor.Delivers (k : Cursor α) (xs : List α) : Prop where
  given : ∀ (i : Nat) (hi : i < xs.length), (k.advance i).next.1 = some xs[i]
  /-- once nothing is given, nothing is given any more -/
  fused : ∀ i, xs.length ≤ i → (k.advance i).next.1 = none
  sizeHint : ∀ j, (k.advance j).sizeHint = (xs.length - j, some (xs.length - j))

namespace Chain

theorem Holds.delivers {c : Chain α} {s : Segment α} (hc : c.Holds s []) :
    c.cursor.Delivers (s.map Prod.snd) where
  given i hi := by
    rw [hc.next_advance_cursor]
    exact List.getElem?_eq_getElem hi
  fused i hi := by
    rw [hc.next_advance_cursor]
    exact List.getElem?_eq_none hi
  sizeHint j := by
    rw [hc.advance_cursor, Cursor.sizeHint, List.length_drop, List.length_map]

/-- The payloads behind the handles of a chain's nodes. -/
theorem Holds.map_get?_handles {c : Chain α} {s : Segment α} (hc : c.Holds s []) :
    (handles s).map c.get? = (s.map Prod.snd).map some := by
  rw [handles, List.map_map, List.map_map]
  apply List.map_congr_left
  rintro ⟨h, x⟩ hmem
  exact hc.get?_eq_some_iff.mpr hmem

/-- After any run of operations, whatever handles they are given: the links lead from the head over as
many nodes as the chain is long, a new walk gives the payloads of these nodes in their order and
nothing after them, and its bounds are exact after any number of calls. -/
theorem delivers_after (ops : List (Op α)) :
    let c := (empty : Chain α).after ops
    ∃ path xs, Follows c.next? c.head path ∧ path.map c.get? = xs.map some ∧
      xs.length = c.length ∧ c.cursor.Delivers xs := by
  intro c
  obtain ⟨s, hs⟩ := holds_empty.exists_after ops
  have hwhole : c.Holds ([] ++ s) [] := hs
  have hfollows : Follows c.next? c.head (handles s) := hs.head ▸ hwhole.follows_next
  have hlength : (s.map Prod.snd).length = c.length := by rw [List.length_map, hs.length]
  exact ⟨handles s, s.map Prod.snd, hfollows, hs.map_get?_handles, hlength, hs.delivers⟩

/-- A node is taken out and another one is moved before the walk begins. -/
example :
    let c := (empty : Chain Nat).after
      [.pushBack 1, .pushBack 2, .pushBack 3, .remove ⟨1, 0⟩, .moveToFront ⟨2, 0⟩]
    (List.range 4).map (fun j => ((c.cursor.advance j).next.1, (c.cursor.advance j).sizeHint)) =
      [(some 3, 2, some 2), (some 1, 1, some 1), (none, 0, some 0), (none, 0, some 0)] := rfl

end Chain

end RespCache
