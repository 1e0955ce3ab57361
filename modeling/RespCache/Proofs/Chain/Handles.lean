import Mathlib.Data.Nat.ModEq
import RespCache.Proofs.Chain.Links
import RespCache.Proofs.Chain.Releases

/-!
Which handles a chain accepts. A handle names a slot and the number of its releases, modulo `2^32`,
at the time of the push that gave the handle out; a chain accepts it while the slot is occupied and
has that number again. So the handle of a node leads to this node until the node is taken out, and is
refused from then on, unless the count of releases comes round (`accepts_after_push`). A chain does
not know which chain a handle was given out by: it looks at the same two numbers whatever run they
come from (`accepts_foreign_iff`).
-/

namespace RespCache.Chain

open Segment

universe u v

variable {α : Type u} {β : Type v}

/-- The payload of a new node, for an operation that adds one. -/
def Op.pushed? : Op α → Option α
  | .pushFront x | .pushBack x => some x
  | _ => none

/-- The handle is taken for that of a node, whatever is asked about it. -/
structure Accepts (c : Chain α) (h : Handle) : Prop where
  contains : c.contains h = true
  get? : ∃ x, c.get? h = some x
  remove : ∃ x, (c.step (.remove h)).1 = .payload (some x)
  moveToFront : (c.step (.moveToFront h)).1 = .flag true
  modify : ∀ f, ∃ x, (c.step (.modify h f)).1 = .payload (some x)

/-- The handle is taken for that of no node, and an operation that is given it does nothing. -/
structure Refuses (c : Chain α) (h : Handle) : Prop where
  contains : c.contains h = false
  get? : c.get? h = none
  step : ∀ op, op.target? = some h → c.step op = (op.miss, c)

namespace Holds

variable {c : Chain α} {s : Segment α} {h : Handle}

theorem accepts_of_mem (hc : c.Holds s []) (hmem : h ∈ handles s) : c.Accepts h := by
  obtain ⟨t, x, u, rfl⟩ := exists_append_of_mem_handles hmem
  have hs := hc.not_mem_handles_before
  constructor
  case contains => exact hc.contains_iff.mpr hmem
  case get? => exact ⟨x, hc.get?_eq_some_iff.mpr (by simp)⟩
  case remove => exact ⟨x, by rw [(hc.step_node rfl h).1, Segment.step, lookup_node hs]⟩
  case moveToFront => rw [(hc.step_node rfl h).1, Segment.step, lookup_node hs]
  case modify => exact fun f => ⟨x, by rw [(hc.step_node rfl h).1, Segment.step, lookup_node hs]⟩

theorem refuses_of_not_mem (hc : c.Holds s []) (hmem : h ∉ handles s) : c.Refuses h where
  contains := by simpa using fun hcontains => hmem (hc.contains_iff.mp hcontains)
  get? := by rw [hc.get?_eq_lookup, lookup_of_not_mem hmem]
  step _ htarget := hc.step_of_not_mem htarget hmem

theorem mem_handles_iff (hc : c.Holds s []) :
    h ∈ handles s ↔ c.arena.Occupied h.index ∧ c.arena.generation h.index = h.generation := by
  rw [← hc.contains_iff, Chain.contains, Option.isSome_iff_exists, Arena.exists_get?_iff]

theorem accepts_iff (hc : c.Holds s []) :
    c.Accepts h ↔ c.arena.Occupied h.index ∧ c.arena.generation h.index = h.generation := by
  rw [← hc.mem_handles_iff]
  exact ⟨fun haccepts => hc.contains_iff.mp haccepts.contains, hc.accepts_of_mem⟩

theorem refuses_iff (hc : c.Holds s []) :
    c.Refuses h ↔ ¬(c.arena.Occupied h.index ∧ c.arena.generation h.index = h.generation) := by
  rw [← hc.mem_handles_iff]
  refine ⟨fun hrefuses hmem => ?_, hc.refuses_of_not_mem⟩
  exact absurd ((hc.contains_iff.mpr hmem).symm.trans hrefuses.contains) (by simp)

end Holds

/-! ### The handle of a push -/

section Push

variable {c : Chain α} {s : Segment α} {push : Op α} {x : α} {h : Handle}

theorem get?_step_push (hc : c.Holds s []) (hpush : push.pushed? = some x)
    (hissued : (c.step push).1 = .handle h) : (c.step push).2.get? h = some x := by
  obtain ⟨name, hanswer, hheld⟩ := hc.step push
  refine hheld.get?_eq_some_iff.mpr ?_
  cases push with
  | pushFront y =>
      cases hpush
      cases hissued.symm.trans hanswer
      exact List.mem_cons_self
  | pushBack y =>
      cases hpush
      cases hissued.symm.trans hanswer
      exact List.mem_append_right _ List.mem_cons_self
  | remove | popBack | moveToFront | modify | clear => cases hpush

/-- The generation of a handle that is given out is the one that the slot had reached. -/
theorem generation_of_issued (hissued : (c.step push).1 = .handle h) :
    c.arena.generation h.index = h.generation := by
  cases push with
  | pushFront y =>
      cases hissued
      exact c.generation_fst_alloc y
  | pushBack y =>
      cases hissued
      exact c.generation_fst_alloc y
  | remove | popBack | moveToFront | modify =>
      simp only [step] at hissued
      split at hissued <;> cases hissued
  | clear => cases hissued

end Push

theorem ofNat_eq_ofNat_iff {m n : Nat} : UInt32.ofNat m = UInt32.ofNat n ↔ m ≡ n [MOD 2 ^ 32] := by
  rw [UInt32.ofNat_eq_iff_mod_eq_toNat, UInt32.toNat_ofNat']
  rfl

theorem add_ofNat_eq_self_iff {g : UInt32} {n : Nat} : g + UInt32.ofNat n = g ↔ 2 ^ 32 ∣ n := by
  rw [UInt32.add_eq_left, UInt32.ofNat_eq_iff_mod_eq_toNat, UInt32.toNat_zero,
    Nat.dvd_iff_mod_eq_zero]

/-- The fate of the handle that a push gives out, after any further operations: as long as its slot
has not been released it leads to the node of that push; after that it is accepted if the slot is
occupied and the number of its releases is a multiple of `2^32`, and refused otherwise. So it is
refused from the first release on, and not given out once more, while there are fewer than `2^32`
of them. -/
theorem accepts_after_push (before later : List (Op α)) {push : Op α} {x : α} {h : Handle}
    (hpush : push.pushed? = some x)
    (hissued : (((empty : Chain α).after before).step push).1 = .handle h) :
    let made := (((empty : Chain α).after before).step push).2
    let c := made.after later
    let released := made.releaseCount h.index later
    (released = 0 → c.Accepts h ∧ c.get? h = some (later.foldl (Op.rewrite h) x)) ∧
      (c.Accepts h ↔ c.arena.Occupied h.index ∧ 2 ^ 32 ∣ released) ∧
      (c.Refuses h ↔ ¬(c.arena.Occupied h.index ∧ 2 ^ 32 ∣ released)) ∧
      (0 < released → released < 2 ^ 32 → c.Refuses h) ∧
      (released < 2 ^ 32 → ∀ y, (c.pushFront y).1 ≠ h ∧ (c.pushBack y).1 ≠ h) := by
  intro made c released
  obtain ⟨s, hs⟩ := holds_empty.exists_after before
  obtain ⟨s', hmade⟩ := hs.exists_step push
  obtain ⟨t, hc⟩ := hmade.exists_after later
  have hget : made.get? h = some x := get?_step_push hs hpush hissued
  have hgeneration : c.arena.generation h.index = h.generation + UInt32.ofNat released := by
    obtain ⟨n, hn, -⟩ := Option.map_eq_some_iff.mp hget
    have hstart := ((Arena.exists_get?_iff _).mp ⟨n, hn⟩).2
    rw [hmade.generation_after, hstart]
  have haccepts : c.Accepts h ↔ c.arena.Occupied h.index ∧ 2 ^ 32 ∣ released := by
    rw [hc.accepts_iff, hgeneration, add_ofNat_eq_self_iff]
  have hrefuses : c.Refuses h ↔ ¬(c.arena.Occupied h.index ∧ 2 ^ 32 ∣ released) := by
    rw [hc.refuses_iff, hgeneration, add_ofNat_eq_self_iff]
  have hstays : released = 0 → c.get? h = some (later.foldl (Op.rewrite h) x) :=
    fun hzero => hmade.get?_after hget hzero
  have hkept : released = 0 → c.Accepts h := fun hzero => by
    refine hc.accepts_of_mem (hc.contains_iff.mp ?_)
    exact Holds.contains_of_get? (hstays hzero)
  refine ⟨fun hzero => ⟨hkept hzero, hstays hzero⟩, haccepts, hrefuses, ?_, ?_⟩
  · intro hpos hlt
    exact hrefuses.mpr fun hround => absurd (Nat.le_of_dvd hpos hround.2) (Nat.not_le_of_lt hlt)
  · intro hlt y
    -- a handle given out again would be of the generation that the slot has reached
    have hfresh : (c.alloc y).1 ≠ h := by
      rintro rfl
      have hround : 2 ^ 32 ∣ released :=
        add_ofNat_eq_self_iff.mp (hgeneration.symm.trans (c.generation_fst_alloc y))
      have hzero : released = 0 := Nat.eq_zero_of_dvd_of_lt hround hlt
      exact hc.safe.alloc_vacant y (haccepts.mp (hkept hzero)).1
    exact ⟨hfresh, hfresh⟩

/-- A slot that is used again: the old handle is refused, and is not given out again. -/
theorem accepts_after_push_reused :
    (Op.pushFront 'a').pushed? = some 'a' ∧
      ((empty.after [.pushBack 'z', .popBack]).step (.pushFront 'a')).1 = .handle ⟨0, 1⟩ ∧
      let c := ((empty.after [.pushBack 'z', .popBack]).step (.pushFront 'a')).2.after
        [.pushBack 'b', .remove ⟨0, 1⟩, .pushFront 'd']
      c.nodes = [(⟨0, 2⟩, 'd'), (⟨1, 0⟩, 'b')] ∧ c.Refuses ⟨0, 1⟩ ∧
        ∀ y, (c.pushFront y).1 ≠ ⟨0, 1⟩ ∧ (c.pushBack y).1 ≠ ⟨0, 1⟩ := by
  have hissued : ((empty.after [.pushBack 'z', .popBack]).step (.pushFront 'a')).1 =
      .handle ⟨0, 1⟩ := rfl
  have hfate := @accepts_after_push Char [.pushBack 'z', .popBack]
    [.pushBack 'b', .remove ⟨0, 1⟩, .pushFront 'd'] (.pushFront 'a') 'a' ⟨0, 1⟩ rfl hissued
  exact ⟨rfl, hissued, rfl, hfate.2.2.2.1 (by decide) (by decide), hfate.2.2.2.2 (by decide)⟩

/-- A handle given out by one chain, shown to another one: it is accepted if its slot is occupied
there and has been released, modulo `2^32`, as often as in the run that gave the handle out; otherwise
it is refused. -/
theorem accepts_foreign_iff (before : List (Op α)) (others : List (Op β)) {push : Op α} {h : Handle}
    (hissued : (((empty : Chain α).after before).step push).1 = .handle h) :
    let c := (empty : Chain β).after others
    let same := (empty : Chain β).releaseCount h.index others ≡
      (empty : Chain α).releaseCount h.index before [MOD 2 ^ 32]
    (c.Accepts h ↔ c.arena.Occupied h.index ∧ same) ∧
      (c.Refuses h ↔ ¬(c.arena.Occupied h.index ∧ same)) := by
  intro c same
  obtain ⟨t, hc⟩ := (holds_empty (α := β)).exists_after others
  have hissuer : h.generation = UInt32.ofNat ((empty : Chain α).releaseCount h.index before) := by
    rw [← generation_of_issued hissued, holds_empty.generation_after]
    exact UInt32.zero_add _
  have hother : c.arena.generation h.index =
      UInt32.ofNat ((empty : Chain β).releaseCount h.index others) := by
    rw [holds_empty.generation_after]
    exact UInt32.zero_add _
  rw [hc.accepts_iff, hc.refuses_iff, hissuer, hother, ofNat_eq_ofNat_iff]
  exact ⟨Iff.rfl, Iff.rfl⟩

/-- One chain gives out a handle of a slot that was released once, and another one has only nodes
whose slots were never released. -/
theorem accepts_foreign_iff_released :
    ((empty.after [.pushFront 'z', .popBack]).step (.pushFront 'a')).1 = .handle ⟨0, 1⟩ ∧
      ((empty : Chain Nat).after [.pushFront 7, .pushBack 8]).Refuses ⟨0, 1⟩ := by
  have hissued : ((empty.after [.pushFront 'z', .popBack]).step (.pushFront 'a')).1 =
      .handle ⟨0, 1⟩ := rfl
  refine ⟨hissued, (accepts_foreign_iff _ _ hissued).2.mpr ?_⟩
  rintro ⟨-, hsame⟩
  exact absurd hsame (by decide)

/-- Two new chains give out the same handle, and each of them accepts it as its own. -/
theorem accepts_foreign_first :
    ((empty : Chain Char).step (.pushFront 'a')).1 = .handle ⟨0, 0⟩ ∧
      let c := (empty : Chain Char).after [.pushFront 'b']
      c.contains ⟨0, 0⟩ = true ∧ c.get? ⟨0, 0⟩ = some 'b' ∧
        (c.step (.moveToFront ⟨0, 0⟩)).1 = .flag true ∧
        (∀ f, (c.step (.modify ⟨0, 0⟩ f)).1 = .payload (some 'b')) ∧
        (c.step (.remove ⟨0, 0⟩)).1 = .payload (some 'b') ∧
        (c.step (.remove ⟨0, 0⟩)).2.nodes = [] ∧ ¬c.Refuses ⟨0, 0⟩ :=
  ⟨rfl, rfl, rfl, rfl, fun _ => rfl, rfl, rfl, fun hrefuses => nomatch hrefuses.get?⟩

end RespCache.Chain
