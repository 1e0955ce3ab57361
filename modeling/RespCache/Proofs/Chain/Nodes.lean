import Mathlib.Data.List.Perm.Subperm
import RespCache.Proofs.Arena
import RespCache.Proofs.Chain.Segment

/-!
A chain as the list of its nodes. `Chain.Holds c s loose` says that the arena of `c` consists of the
linked segment `s`, from head to tail, and of nodes `loose` that are linked to nothing; it fixes
both links of every node, the ends and the length. An operation is a short walk between such states:
a node comes loose, is erased, or is attached at an end. `Holds.nodes_eq` reads the segment back.
-/

namespace RespCache.Chain

open Segment

universe u

variable {α : Type u}

/-- The arena holds the linked segment `s` and unlinked nodes `loose`, and nothing else. -/
structure Holds (c : Chain α) (s loose : Segment α) : Prop where
  arena : c.arena.Sound
  node : ∀ g, c.arena.get? g = (node? none none s g).or (node? none none loose g)
  nodup : (handles (loose ++ s)).Nodup
  head : c.head = first none s
  tail : c.tail = last none s
  length : c.length = s.length

theorem holds_empty : (empty : Chain α).Holds [] [] where
  arena := Arena.sound_empty
  node g := by simp [empty, Arena.get?]
  nodup := List.nodup_nil
  head := rfl
  tail := rfl
  length := rfl

/-! ### Reading -/

section Handles

variable {c : Chain α} {path : List Handle}

/-- Different handles that resolve name different slots. -/
theorem nodup_map_index (hnodup : path.Nodup) (hnodes : ∀ h ∈ path, ∃ n, c.arena.get? h = some n) :
    (path.map Handle.index).Nodup := by
  refine hnodup.map_on fun g hg h hh hindex => ?_
  obtain ⟨m, hm⟩ := hnodes g hg
  obtain ⟨n, hn⟩ := hnodes h hh
  exact c.arena.get?_slot_injective hm hn hindex

theorem length_le_size_of_nodup (hnodup : path.Nodup)
    (hnodes : ∀ h ∈ path, ∃ n, c.arena.get? h = some n) : path.length ≤ c.arena.slots.size := by
  have hsubset : path.map Handle.index ⊆ List.range c.arena.slots.size := by
    intro i hi
    obtain ⟨h, hmem, rfl⟩ := List.mem_map.mp hi
    obtain ⟨n, hn⟩ := hnodes h hmem
    exact List.mem_range.mpr (c.arena.index_lt_of_get? hn)
  have hlength := ((nodup_map_index hnodup hnodes).subperm hsubset).length_le
  rwa [List.length_map, List.length_range] at hlength

end Handles

namespace Holds

variable {c : Chain α} {s t loose : Segment α} {h : Handle} {x : α}

theorem nodup_handles (hc : c.Holds s loose) : (handles s).Nodup := by
  have := hc.nodup
  rw [handles_append] at this
  exact this.of_append_right

theorem not_mem_handles_before (hc : c.Holds (s ++ (h, x) :: t) loose) : h ∉ handles s := by
  have hnodup := hc.nodup_handles
  rw [handles_append] at hnodup
  exact fun hmem => List.disjoint_of_nodup_append hnodup hmem (by simp)

theorem get?_node (hc : c.Holds (s ++ (h, x) :: t) loose) :
    c.arena.get? h = some ⟨x, last none s, first none t⟩ := by
  rw [hc.node, node?_append, first_cons, node?_eq_none_iff.mpr hc.not_mem_handles_before,
    node?_cons_self]
  rfl

theorem get?_eq_none_iff (hc : c.Holds s []) : c.arena.get? h = none ↔ h ∉ handles s := by
  rw [hc.node, node?_nil, Option.or_none, node?_eq_none_iff]

theorem contains_iff (hc : c.Holds s []) : c.contains h = true ↔ h ∈ handles s := by
  rw [Chain.contains, Option.isSome_iff_ne_none, ne_eq, hc.get?_eq_none_iff, not_not]

theorem contains_node (hc : c.Holds (s ++ (h, x) :: t) loose) : c.contains h = true := by
  rw [Chain.contains, hc.get?_node]
  rfl

/-- A handle resolves to the payload that stands beside it. -/
theorem get?_eq_some_iff (hc : c.Holds s []) : c.get? h = some x ↔ (h, x) ∈ s := by
  constructor
  · intro hx
    obtain ⟨n, hn, rfl⟩ := Option.map_eq_some_iff.mp hx
    rw [hc.node, node?_nil, Option.or_none] at hn
    exact mem_of_node? hn
  · intro hmem
    obtain ⟨t, u, rfl⟩ := List.append_of_mem hmem
    rw [Chain.get?, hc.get?_node]
    rfl

theorem nodesFrom_eq (hc : c.Holds (s ++ t) loose) (n : Nat) (hn : t.length ≤ n) :
    c.nodesFrom n (first none t) = t := by
  induction t generalizing s n with
  | nil => cases n <;> rfl
  | cons p t ih =>
      obtain ⟨h, x⟩ := p
      cases n with
      | zero => simp at hn
      | succ n =>
          have hrest : c.Holds ((s ++ [(h, x)]) ++ t) loose := by simpa using hc
          rw [first_cons, nodesFrom, hc.get?_node]
          exact congrArg _ (ih hrest n (Nat.le_of_succ_le_succ hn))

theorem exists_get?_of_mem (hc : c.Holds s loose) (hmem : h ∈ handles s) :
    ∃ n, c.arena.get? h = some n := by
  obtain ⟨t, x, u, rfl⟩ := exists_append_of_mem_handles hmem
  exact ⟨_, hc.get?_node⟩

/-- Nodes have slots of their own. -/
theorem nodup_indices (hc : c.Holds s loose) : ((handles s).map Handle.index).Nodup :=
  nodup_map_index hc.nodup_handles fun _ => hc.exists_get?_of_mem

theorem length_le_size (hc : c.Holds s loose) : s.length ≤ c.arena.slots.size := by
  have hlength := length_le_size_of_nodup hc.nodup_handles fun _ => hc.exists_get?_of_mem
  rwa [handles, List.length_map] at hlength

theorem nodes_eq (hc : c.Holds s loose) : c.nodes = s := by
  have hwhole : c.Holds ([] ++ s) loose := hc
  rw [nodes, hc.head]
  exact hwhole.nodesFrom_eq _ hc.length_le_size

end Holds

/-! ### Links -/

theorem get?_setNext (c : Chain α) (h next : Option Handle) (g : Handle) :
    (c.setNext h next).arena.get? g =
      if h = some g then (c.arena.get? g).map fun n => { n with next } else c.arena.get? g := by
  obtain ⟨arena, head, tail, length⟩ := c
  cases h with
  | none => rfl
  | some h =>
      simp only [setNext, Arena.get?_modify, Option.some.injEq]
      simp only [eq_comm]

theorem get?_setPrev (c : Chain α) (h prev : Option Handle) (g : Handle) :
    (c.setPrev h prev).arena.get? g =
      if h = some g then (c.arena.get? g).map fun n => { n with prev } else c.arena.get? g := by
  obtain ⟨arena, head, tail, length⟩ := c
  cases h with
  | none => rfl
  | some h =>
      simp only [setPrev, Arena.get?_modify, Option.some.injEq]
      simp only [eq_comm]

theorem get?_setLinks (c : Chain α) (h : Handle) (prev next : Option Handle) (g : Handle) :
    (c.setLinks h prev next).arena.get? g =
      if g = h then (c.arena.get? g).map fun n => { n with prev, next } else c.arena.get? g := by
  obtain ⟨arena, head, tail, length⟩ := c
  exact Arena.get?_modify _ _ _ _

@[simp] theorem head_setNext (c : Chain α) (h next : Option Handle) :
    (c.setNext h next).head = if h = none then next else c.head := by
  obtain ⟨arena, head, tail, length⟩ := c
  cases h <;> rfl

@[simp] theorem tail_setNext (c : Chain α) (h next : Option Handle) :
    (c.setNext h next).tail = c.tail := by
  obtain ⟨arena, head, tail, length⟩ := c
  cases h <;> rfl

@[simp] theorem length_setNext (c : Chain α) (h next : Option Handle) :
    (c.setNext h next).length = c.length := by
  obtain ⟨arena, head, tail, length⟩ := c
  cases h <;> rfl

@[simp] theorem head_setPrev (c : Chain α) (h prev : Option Handle) :
    (c.setPrev h prev).head = c.head := by
  obtain ⟨arena, head, tail, length⟩ := c
  cases h <;> rfl

@[simp] theorem tail_setPrev (c : Chain α) (h prev : Option Handle) :
    (c.setPrev h prev).tail = if h = none then prev else c.tail := by
  obtain ⟨arena, head, tail, length⟩ := c
  cases h <;> rfl

@[simp] theorem length_setPrev (c : Chain α) (h prev : Option Handle) :
    (c.setPrev h prev).length = c.length := by
  obtain ⟨arena, head, tail, length⟩ := c
  cases h <;> rfl

@[simp] theorem head_setLinks (c : Chain α) (h : Handle) (prev next : Option Handle) :
    (c.setLinks h prev next).head = c.head := rfl

@[simp] theorem tail_setLinks (c : Chain α) (h : Handle) (prev next : Option Handle) :
    (c.setLinks h prev next).tail = c.tail := rfl

@[simp] theorem length_setLinks (c : Chain α) (h : Handle) (prev next : Option Handle) :
    (c.setLinks h prev next).length = c.length := rfl

theorem modified_setNext (c : Chain α) (h next : Option Handle) :
    c.arena.Modified (c.setNext h next).arena := by
  obtain ⟨arena, head, tail, length⟩ := c
  cases h with
  | none => exact .refl
  | some h => exact .modify h _ .refl

theorem modified_setPrev (c : Chain α) (h prev : Option Handle) :
    c.arena.Modified (c.setPrev h prev).arena := by
  obtain ⟨arena, head, tail, length⟩ := c
  cases h with
  | none => exact .refl
  | some h => exact .modify h _ .refl

theorem modified_setLinks (c : Chain α) (h : Handle) (prev next : Option Handle) :
    c.arena.Modified (c.setLinks h prev next).arena := by
  obtain ⟨arena, head, tail, length⟩ := c
  exact .modify h _ .refl

/-! ### Detaching, attaching, allocating and erasing -/

theorem detach_of_get? {c : Chain α} {h : Handle} {n : Node α} (hn : c.arena.get? h = some n) :
    c.detach h =
      some { ((c.setNext n.prev n.next).setPrev n.next n.prev).setLinks h none none with
        length := c.length - 1 } := by
  have hlength : (((c.setNext n.prev n.next).setPrev n.next n.prev).setLinks h none none).length =
      c.length := by simp
  rw [Chain.detach, hn, ← hlength]

namespace Holds

variable {c : Chain α} {s t : Segment α} {h : Handle} {x : α}

/-- A node that comes loose leaves its two neighbours linked to each other. -/
theorem detach (hc : c.Holds (s ++ (h, x) :: t) []) :
    ∃ c', c.detach h = some c' ∧ c'.Holds (s ++ t) [(h, x)] := by
  have hnode := hc.get?_node
  have hnodup : (handles s ++ h :: handles t).Nodup := by simpa using hc.nodup
  have hs := hc.not_mem_handles_before
  have ht : h ∉ handles t := (List.nodup_cons.mp hnodup.of_append_right).1
  refine ⟨_, detach_of_get? hnode, ?_⟩
  constructor
  case arena =>
    have hjoined := (c.modified_setNext (last none s) (first none t)).trans
      (modified_setPrev _ (first none t) (last none s))
    exact (hjoined.trans (modified_setLinks _ h none none)).sound hc.arena
  case node =>
    intro g
    simp only [get?_setLinks, get?_setPrev, get?_setNext]
    by_cases hg : g = h
    · subst hg
      have hlast : last none s ≠ some g := fun hlast => hs (mem_handles_of_last hlast)
      have hfirst : first none t ≠ some g := fun hfirst => ht (mem_handles_of_first hfirst)
      have hjoin : node? none none (s ++ t) g = none :=
        node?_eq_none_iff.mpr (by simp [hs, ht])
      simp [hnode, hlast, hfirst, hjoin]
    · have hjoin := node?_join hc.nodup_handles hg
      rw [hc.node, node?_nil, Option.or_none, if_neg hg, hjoin]
      simp [node?_cons, hg]
  case nodup =>
    simpa using hnodup.perm List.perm_middle
  case head =>
    simp only [head_setLinks, head_setPrev, head_setNext, hc.head]
    rw [first_append, first_append]
    cases s with
    | nil => rfl
    | cons p s =>
        rw [if_neg (by simp [last_eq_none_iff])]
        rfl
  case tail =>
    simp only [tail_setLinks, tail_setPrev, tail_setNext, hc.tail]
    rw [last_append, last_append]
    cases t <;> rfl
  case length => simp [hc.length]

theorem not_mem_handles_of_loose (hc : c.Holds s [(h, x)]) : h ∉ handles s :=
  (List.nodup_cons.mp hc.nodup).1

theorem get?_loose (hc : c.Holds s [(h, x)]) : c.arena.get? h = some ⟨x, none, none⟩ := by
  rw [hc.node, node?_eq_none_iff.mpr hc.not_mem_handles_of_loose, node?_cons_self]
  rfl

theorem contains_loose (hc : c.Holds s [(h, x)]) : c.contains h = true := by
  rw [Chain.contains, hc.get?_loose]
  rfl

theorem attachFront (hc : c.Holds s [(h, x)]) : (c.attachFront h).Holds ((h, x) :: s) [] := by
  have hnotMem := hc.not_mem_handles_of_loose
  have hnode := hc.get?_loose
  have hfirst : first none s ≠ some h := fun hfirst => hnotMem (mem_handles_of_first hfirst)
  rw [Chain.attachFront, if_pos hc.contains_loose]
  constructor
  case arena =>
    have hlinked := (c.modified_setLinks h none c.head).trans (modified_setPrev _ c.head (some h))
    exact hlinked.sound hc.arena
  case node =>
    intro g
    simp only [get?_setLinks, get?_setPrev, hc.head]
    by_cases hg : g = h
    · subst hg
      simp [hnode, hfirst]
    · rw [hc.node, node?_cons none none h x s, if_neg hg, if_neg hg, node?_prev s none (some h)]
      simp [node?_cons, hg]
  case nodup => simpa using hc.nodup
  case head => rfl
  case tail =>
    simp only [tail_setPrev, tail_setLinks, hc.head, hc.tail]
    cases s <;> rfl
  case length => simp [hc.length]

theorem attachBack (hc : c.Holds s [(h, x)]) : (c.attachBack h).Holds (s ++ [(h, x)]) [] := by
  have hnotMem := hc.not_mem_handles_of_loose
  have hnode := hc.get?_loose
  have hlast : last none s ≠ some h := fun hlast => hnotMem (mem_handles_of_last hlast)
  rw [Chain.attachBack, if_pos hc.contains_loose]
  constructor
  case arena =>
    have hlinked := (c.modified_setLinks h c.tail none).trans (modified_setNext _ c.tail (some h))
    exact hlinked.sound hc.arena
  case node =>
    intro g
    simp only [get?_setLinks, get?_setNext, hc.tail]
    rw [node?_append]
    by_cases hg : g = h
    · subst hg
      simp [hnode, hlast, node?_eq_none_iff.mpr hnotMem]
    · rw [hc.node, if_neg hg, first_cons, node?_next hc.nodup_handles none none (some h)]
      simp [node?_cons, hg]
  case nodup => simpa using hc.nodup.perm (List.perm_append_singleton h (handles s)).symm
  case head =>
    simp only [head_setNext, head_setLinks, hc.head, hc.tail]
    cases s with
    | nil => rfl
    | cons p s =>
        rw [if_neg (by simp [last_eq_none_iff])]
        rfl
  case tail => simp
  case length => simp [hc.length]

theorem alloc (hc : c.Holds s []) (x : α) : (c.alloc x).2.Holds s [((c.alloc x).1, x)] := by
  obtain ⟨arena, head, tail, length⟩ := c
  have hfresh := hc.arena.get?_insert_fresh ⟨x, none, none⟩
  constructor
  case arena => exact hc.arena.insert _
  case node =>
    intro g
    have hnode := hc.node g
    rw [node?_nil, Option.or_none] at hnode
    refine (hc.arena.get?_insert _ g).trans ?_
    split
    case isTrue hg =>
      rw [← hnode, hg]
      simp only at hfresh
      simp [hfresh, Chain.alloc]
    case isFalse hg => simp [Chain.alloc, hg, hnode, node?_cons]
  case nodup =>
    exact List.nodup_cons.mpr ⟨hc.get?_eq_none_iff.mp hfresh, hc.nodup⟩
  case head => exact hc.head
  case tail => exact hc.tail
  case length => exact hc.length

/-- Erasing an unlinked node leaves the linked ones as they are. -/
theorem erase (hc : c.Holds s [(h, x)]) :
    ∃ arena, c.arena.erase h = some (⟨x, none, none⟩, arena) ∧
      ({ c with arena } : Chain α).Holds s [] := by
  have hnotMem := hc.not_mem_handles_of_loose
  have hnode := hc.get?_loose
  obtain ⟨arena, harena⟩ := Arena.exists_erase_of_get? hnode
  refine ⟨arena, harena, ?_⟩
  constructor
  case arena => exact hc.arena.of_erase harena
  case node =>
    intro g
    rw [Arena.get?_of_erase harena]
    split
    case isTrue hg =>
      rw [hg, node?_eq_none_iff.mpr hnotMem]
      rfl
    case isFalse hg =>
      rw [hc.node]
      simp [node?_cons, hg]
  case nodup => exact (List.nodup_cons.mp hc.nodup).2
  case head => exact hc.head
  case tail => exact hc.tail
  case length => exact hc.length

/-! ### The operations -/

theorem pushFront (hc : c.Holds s []) (x : α) :
    (c.pushFront x).2.Holds (((c.pushFront x).1, x) :: s) [] :=
  (hc.alloc x).attachFront

theorem pushBack (hc : c.Holds s []) (x : α) :
    (c.pushBack x).2.Holds (s ++ [((c.pushBack x).1, x)]) [] :=
  (hc.alloc x).attachBack

theorem remove (hc : c.Holds (s ++ (h, x) :: t) []) :
    ∃ c', c.remove h = some (x, c') ∧ c'.Holds (s ++ t) [] := by
  obtain ⟨d, hdetach, hd⟩ := hc.detach
  obtain ⟨arena, herase, hheld⟩ := hd.erase
  refine ⟨_, ?_, hheld⟩
  rw [Chain.remove, hdetach]
  simp only [herase]

theorem remove_of_not_mem (hc : c.Holds s []) (hmem : h ∉ handles s) : c.remove h = none := by
  rw [Chain.remove, Chain.detach, hc.get?_eq_none_iff.mpr hmem]

theorem popBack (hc : c.Holds (s ++ [(h, x)]) []) :
    ∃ c', c.popBack = some (x, c') ∧ c'.Holds s [] := by
  obtain ⟨c', hremove, hheld⟩ := hc.remove
  refine ⟨c', ?_, by simpa using hheld⟩
  rw [Chain.popBack, hc.tail, last_concat]
  exact hremove

theorem popBack_nil (hc : c.Holds [] []) : c.popBack = none := by
  rw [Chain.popBack, hc.tail]
  rfl

theorem moveToFront (hc : c.Holds (s ++ (h, x) :: t) []) :
    ∃ c', c.moveToFront h = some c' ∧ c'.Holds ((h, x) :: (s ++ t)) [] := by
  rw [Chain.moveToFront, if_pos hc.contains_node]
  split
  case isTrue hhead =>
    -- the segment in front of the head is empty, for a handle stands in it once
    cases s with
    | nil => exact ⟨c, rfl, hc⟩
    | cons p s =>
        rw [hc.head] at hhead
        cases hhead
        exact absurd hc.nodup_handles (by simp [handles])
  case isFalse =>
    obtain ⟨d, hdetach, hd⟩ := hc.detach
    exact ⟨_, by rw [hdetach]; rfl, hd.attachFront⟩

theorem moveToFront_of_not_mem (hc : c.Holds s []) (hmem : h ∉ handles s) :
    c.moveToFront h = none := by
  have hcontains : c.contains h ≠ true := fun hcontains => hmem (hc.contains_iff.mp hcontains)
  rw [Chain.moveToFront, if_neg hcontains]

theorem modify? (hc : c.Holds (s ++ (h, x) :: t) []) (f : α → α) :
    ∃ c', c.modify? h f = some c' ∧ c'.Holds (s ++ (h, f x) :: t) [] := by
  rw [Chain.modify?, if_pos hc.contains_node]
  refine ⟨_, rfl, ?_⟩
  constructor
  case arena => exact (Arena.Modified.modify h _ .refl).sound hc.arena
  case node =>
    intro g
    refine (Arena.get?_modify _ _ _ _).trans ?_
    rw [hc.node, node?_nil, Option.or_none, Option.or_none, node?_payload hc.not_mem_handles_before]
  case nodup => simpa using hc.nodup
  case head => simpa [first_append] using hc.head
  case tail => simpa [last_append] using hc.tail
  case length => simpa using hc.length

theorem modify?_of_not_mem (hc : c.Holds s []) (hmem : h ∉ handles s) (f : α → α) :
    c.modify? h f = none := by
  have hcontains : c.contains h ≠ true := fun hcontains => hmem (hc.contains_iff.mp hcontains)
  rw [Chain.modify?, if_neg hcontains]

end Holds

theorem holds_clear (c : Chain α) : c.clear.Holds [] [] where
  arena := Arena.sound_clear
  node g := Arena.get?_clear g
  nodup := List.nodup_nil
  head := rfl
  tail := rfl
  length := rfl

end RespCache.Chain
