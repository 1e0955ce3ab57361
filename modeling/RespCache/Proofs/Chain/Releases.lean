import RespCache.Proofs.Chain.Modified
import RespCache.Proofs.Chain.Run
import RespCache.Proofs.Chain.Validation

/-!
How often the slots of a chain give up their nodes. Three operations take nodes out: `remove`,
`popBack` and `clear` (`Holds.releases_iff`). A slot's generation counts these releases, modulo
`2^32`, and nothing else (`Holds.generation_after`); as long as the slot of a node is not released,
the handle of the node leads to it, and its payload changes through this handle only
(`Holds.get?_after`).
-/

namespace RespCache.Chain

open Segment

universe u

variable {α : Type u}

/-- Whether an operation takes the node out of the slot `i`. -/
def releases (c : Chain α) (i : Nat) : Op α → Bool
  | .remove h => c.contains h && h.index == i
  | .popBack => c.tail.any fun h => c.contains h && h.index == i
  | .clear => decide (c.arena.Occupied i)
  | _ => false

/-- How many of the operations, carried out one after the other, take the node out of the slot `i`.
-/
def releaseCount (c : Chain α) (i : Nat) : List (Op α) → Nat
  | [] => 0
  | op :: ops => (c.releases i op).toNat + (c.step op).2.releaseCount i ops

/-- What an operation makes of the payload of the node with the handle `h`. -/
def Op.rewrite (h : Handle) (x : α) : Op α → α
  | .modify g f => if g = h then f x else x
  | _ => x

/-! ### Generations -/

section Generations

variable {c c' : Chain α} (i : Nat)

theorem generation_pushFront (c : Chain α) (x : α) :
    (c.pushFront x).2.arena.generation i = c.arena.generation i := by
  obtain ⟨arena, head, tail, length⟩ := c
  exact ((modified_attachFront _ _).generation i).trans (Arena.generation_insert _ i)

theorem generation_pushBack (c : Chain α) (x : α) :
    (c.pushBack x).2.arena.generation i = c.arena.generation i := by
  obtain ⟨arena, head, tail, length⟩ := c
  exact ((modified_attachBack _ _).generation i).trans (Arena.generation_insert _ i)

theorem generation_remove {h : Handle} {x : α} (hc' : c.remove h = some (x, c')) :
    c'.arena.generation i = c.arena.generation i + if h.index = i then 1 else 0 := by
  obtain ⟨arena, n, hmodified, herase⟩ := exists_erase_of_remove hc'
  rw [Arena.generation_of_erase herase, hmodified.generation]

/-- The handle of a new node is of the generation that its slot has reached. -/
theorem generation_fst_alloc (c : Chain α) (x : α) :
    c.arena.generation (c.alloc x).1.index = (c.alloc x).1.generation := by
  obtain ⟨arena, head, tail, length⟩ := c
  exact Arena.generation_fst_insert _

end Generations

theorem step_popBack {c : Chain α} {h : Handle} (htail : c.tail = some h) :
    c.step .popBack = c.step (.remove h) := by
  simp only [step, popBack, htail]

theorem releases_popBack {c : Chain α} {h : Handle} (htail : c.tail = some h) (i : Nat) :
    c.releases i .popBack = c.releases i (.remove h) := by
  simp only [releases, htail, Option.any_some]

namespace Holds

variable {c : Chain α} {s : Segment α} {h : Handle} {x : α}

theorem generation_step_remove (hc : c.Holds s []) (h : Handle) (i : Nat) :
    (c.step (.remove h)).2.arena.generation i =
      c.arena.generation i + UInt32.ofNat (c.releases i (.remove h)).toNat := by
  by_cases hmem : h ∈ handles s
  · have hcontains : c.contains h = true := hc.contains_iff.mpr hmem
    obtain ⟨t, x, u, rfl⟩ := exists_append_of_mem_handles hmem
    obtain ⟨c', hremove, -⟩ := hc.remove
    simp only [Chain.step, hremove, generation_remove i hremove, releases, hcontains, Bool.true_and]
    by_cases hindex : h.index = i
    · simp [hindex]
    · simp [hindex, beq_eq_false_iff_ne.mpr hindex]
  · have hcontains : c.contains h = false := by
      simpa using fun hcontains => hmem (hc.contains_iff.mp hcontains)
    rw [hc.step_of_not_mem rfl hmem, releases, hcontains]
    simp

/-- A slot moves on by one generation if it is released, and not otherwise. -/
theorem generation_step (hc : c.Holds s []) (op : Op α) (i : Nat) :
    (c.step op).2.arena.generation i =
      c.arena.generation i + UInt32.ofNat (c.releases i op).toNat := by
  cases op with
  | pushFront x => simp [Chain.step, generation_pushFront, releases]
  | pushBack x => simp [Chain.step, generation_pushBack, releases]
  | remove h => exact hc.generation_step_remove h i
  | popBack =>
      cases htail : c.tail with
      | none => simp [Chain.step, Chain.popBack, htail, releases]
      | some h =>
          rw [step_popBack htail, releases_popBack htail]
          exact hc.generation_step_remove h i
  | moveToFront h =>
      simp only [Chain.step, releases]
      split
      case h_1 c' hmove => simp [(modified_moveToFront hmove).generation]
      case h_2 => simp
  | modify h f =>
      simp only [Chain.step, releases]
      split
      case h_1 c' hmodify => simp [(modified_modify? hmodify).generation]
      case h_2 => simp
  | clear =>
      obtain ⟨arena, head, tail, length⟩ := c
      refine (Arena.generation_clear i).trans ?_
      by_cases hoccupied : arena.Occupied i <;> simp [releases, hoccupied]

theorem generation_after (hc : c.Holds s []) (ops : List (Op α)) (i : Nat) :
    (c.after ops).arena.generation i =
      c.arena.generation i + UInt32.ofNat (c.releaseCount i ops) := by
  induction ops generalizing c s with
  | nil => simp [after, releaseCount]
  | cons op ops ih =>
      obtain ⟨s', hstep⟩ := hc.exists_step op
      calc (c.after (op :: ops)).arena.generation i
          = (c.step op).2.arena.generation i +
              UInt32.ofNat ((c.step op).2.releaseCount i ops) := ih hstep
        _ = c.arena.generation i + UInt32.ofNat (c.releaseCount i (op :: ops)) := by
          rw [hc.generation_step, releaseCount, UInt32.ofNat_add, UInt32.add_assoc]

/-! ### Nodes that stay -/

theorem contains_of_get? (hx : c.get? h = some x) : c.contains h = true := by
  obtain ⟨n, hn, -⟩ := Option.map_eq_some_iff.mp hx
  rw [Chain.contains, hn]
  rfl

theorem get?_step_remove (hc : c.Holds s []) (hx : c.get? h = some x) {g : Handle}
    (hstays : c.releases h.index (.remove g) = false) :
    (c.step (.remove g)).2.get? h = some x := by
  obtain ⟨name, -, hstep⟩ := hc.step (.remove g)
  have hmem : (h, x) ∈ s := hc.get?_eq_some_iff.mp hx
  have hne : h ≠ g := by
    rintro rfl
    simp [releases, contains_of_get? hx] at hstays
  exact hstep.get?_eq_some_iff.mpr (List.mem_filter.mpr ⟨hmem, by simpa using hne⟩)

/-- A node whose slot is not released stays, under its handle. -/
theorem get?_step (hc : c.Holds s []) (hx : c.get? h = some x) {op : Op α}
    (hstays : c.releases h.index op = false) :
    (c.step op).2.get? h = some (op.rewrite h x) := by
  obtain ⟨name, -, hstep⟩ := hc.step op
  have hmem : (h, x) ∈ s := hc.get?_eq_some_iff.mp hx
  cases op with
  | pushFront y => exact hstep.get?_eq_some_iff.mpr (List.mem_cons_of_mem _ hmem)
  | pushBack y => exact hstep.get?_eq_some_iff.mpr (List.mem_append_left _ hmem)
  | remove g => exact hc.get?_step_remove hx hstays
  | popBack =>
      cases htail : c.tail with
      | none =>
          have hs : s = [] := last_eq_none_iff.mp (hc.tail.symm.trans htail)
          simp [hs] at hmem
      | some g =>
          rw [releases_popBack htail] at hstays
          rw [step_popBack htail]
          exact hc.get?_step_remove hx hstays
  | moveToFront g =>
      refine hstep.get?_eq_some_iff.mpr ?_
      have hlookup : s.lookup h = some x := (hc.get?_eq_lookup h).symm.trans hx
      by_cases hg : g = h
      · subst hg
        simp [Segment.step, hlookup, Op.rewrite]
      · simp only [Segment.step]
        split
        · exact List.mem_cons_of_mem _ (List.mem_filter.mpr ⟨hmem, by simpa using Ne.symm hg⟩)
        · exact hmem
  | modify g f =>
      refine hstep.get?_eq_some_iff.mpr (List.mem_map.mpr ⟨(h, x), hmem, ?_⟩)
      by_cases hg : g = h
      · simp [Op.rewrite, hg]
      · simp [Op.rewrite, hg, Ne.symm hg]
  | clear =>
      have hoccupied : c.arena.Occupied h.index := by
        obtain ⟨n, hn, -⟩ := Option.map_eq_some_iff.mp hx
        exact ((Arena.exists_get?_iff _).mp ⟨n, hn⟩).1
      simp [releases, hoccupied] at hstays

theorem vacates_remove (hc : c.Holds s []) {i : Nat} (hreleases : c.releases i (.remove h) = true) :
    c.arena.Occupied i ∧ ¬(c.step (.remove h)).2.arena.Occupied i := by
  obtain ⟨name, -, hstep⟩ := hc.step (.remove h)
  have hcontains : c.contains h = true ∧ h.index = i := by simpa [releases] using hreleases
  obtain ⟨hcontains, rfl⟩ := hcontains
  have hmem : h ∈ handles s := hc.contains_iff.mp hcontains
  refine ⟨hc.mem_indices_iff.mp (List.mem_map_of_mem hmem), fun hoccupied => ?_⟩
  obtain ⟨g, hg, hindex⟩ := List.mem_map.mp (hstep.mem_indices_iff.mpr hoccupied)
  obtain ⟨p, hp, rfl⟩ := List.mem_map.mp hg
  obtain ⟨hp, hne⟩ := List.mem_filter.mp hp
  have heq : p.1 = h :=
    List.inj_on_of_nodup_map hc.nodup_indices (List.mem_map_of_mem hp) hmem hindex
  simp [heq] at hne

/-- A release is what takes the node out of an occupied slot. -/
theorem releases_iff (hc : c.Holds s []) (op : Op α) (i : Nat) :
    c.releases i op = true ↔ c.arena.Occupied i ∧ ¬(c.step op).2.arena.Occupied i := by
  constructor
  · intro hreleases
    cases op with
    | remove h => exact hc.vacates_remove hreleases
    | popBack =>
        cases htail : c.tail with
        | none => simp [releases, htail] at hreleases
        | some h =>
            rw [releases_popBack htail] at hreleases
            rw [step_popBack htail]
            exact hc.vacates_remove hreleases
    | clear =>
        obtain ⟨name, -, hstep⟩ := hc.step .clear
        refine ⟨by simpa [releases] using hreleases, fun hoccupied => ?_⟩
        have hmem := hstep.mem_indices_iff.mpr hoccupied
        cases hmem
    | pushFront | pushBack | moveToFront | modify => cases hreleases
  · rintro ⟨⟨generation, n, hslot⟩, hvacated⟩
    by_contra hstays
    -- the node would still be there
    have hget : c.get? ⟨i, generation⟩ = some n.payload := by
      rw [Chain.get?, (Arena.get?_eq_some_iff _).mpr hslot]
      rfl
    obtain ⟨n', hn', -⟩ := Option.map_eq_some_iff.mp
      (hc.get?_step hget (Bool.eq_false_iff.mpr hstays))
    exact hvacated ((Arena.exists_get?_iff _).mp ⟨n', hn'⟩).1

theorem get?_after (hc : c.Holds s []) (hx : c.get? h = some x) {ops : List (Op α)}
    (hstays : c.releaseCount h.index ops = 0) :
    (c.after ops).get? h = some (ops.foldl (Op.rewrite h) x) := by
  induction ops generalizing c s x with
  | nil => exact hx
  | cons op ops ih =>
      obtain ⟨s', hstep⟩ := hc.exists_step op
      rw [releaseCount, Nat.add_eq_zero_iff, Bool.toNat_eq_zero] at hstays
      exact ih hstep (hc.get?_step hx hstays.1) hstays.2

end Holds

end RespCache.Chain
