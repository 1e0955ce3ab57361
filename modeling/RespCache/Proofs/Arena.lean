import Mathlib.Data.List.Nodup
import Mathlib.Data.List.Perm.Subperm
import Mathlib.Tactic.SplitIfs
import RespCache.Arena

/-!
What a handle resolves to after each operation of an arena, and the bookkeeping of vacant slots. A
handle names a slot together with its generation, so two handles that resolve and share a slot are
equal (`get?_slot_injective`); this holds whatever the generations count. `Arena.Sound` says that
the free list holds each vacant slot once and nothing else, and every operation keeps it.
-/

namespace RespCache.Arena

universe u

variable {α : Type u} (a : Arena α)

theorem get?_eq_some_iff {h : Handle} {x : α} :
    a.get? h = some x ↔ a.slots[h.index]? = some ⟨h.generation, some x⟩ := by
  unfold get?
  split
  case h_1 s hs =>
    obtain ⟨generation, content⟩ := s
    rw [hs]
    constructor
    · intro hx
      split_ifs at hx with hgeneration
      simp only at hgeneration hx
      rw [hgeneration, hx]
    · intro hx
      cases hx
      simp
  case h_2 hs => simp [hs]

theorem get?_slot_injective {g h : Handle} {x y : α} (hg : a.get? g = some x)
    (hh : a.get? h = some y) (hindex : g.index = h.index) : g = h := by
  rw [get?_eq_some_iff] at hg hh
  rw [hindex, hh] at hg
  obtain ⟨index, generation⟩ := g
  obtain ⟨index', generation'⟩ := h
  cases hindex
  cases hg
  rfl

theorem index_lt_of_get? {h : Handle} {x : α} (hx : a.get? h = some x) :
    h.index < a.slots.size := by
  rw [get?_eq_some_iff] at hx
  exact (Array.getElem?_eq_some_iff.mp hx).1

def Vacant (i : Nat) : Prop := ∃ generation, a.slots[i]? = some ⟨generation, none⟩

def Occupied (i : Nat) : Prop := ∃ generation x, a.slots[i]? = some ⟨generation, some x⟩

/-- The generation that a slot has reached; one that is yet to be made is in the first one. -/
def generation (i : Nat) : UInt32 := (a.slots[i]?.map Slot.generation).getD 0

instance : DecidablePred a.Occupied := fun i =>
  decidable_of_iff ((a.slots[i]?.bind Slot.content).isSome = true) <| by
    unfold Occupied
    cases a.slots[i]? with
    | none => simp
    | some s => obtain ⟨generation, _ | x⟩ := s <;> simp

/-- A handle resolves while its slot holds a value and is in the handle's generation. -/
theorem exists_get?_iff {h : Handle} :
    (∃ x, a.get? h = some x) ↔ a.Occupied h.index ∧ a.generation h.index = h.generation := by
  simp only [get?_eq_some_iff]
  constructor
  · rintro ⟨x, hslot⟩
    exact ⟨⟨_, x, hslot⟩, by rw [generation, hslot]; rfl⟩
  · rintro ⟨⟨g, x, hslot⟩, hgeneration⟩
    rw [generation, hslot] at hgeneration
    exact ⟨x, hgeneration ▸ hslot⟩

theorem not_occupied_of_vacant {i : Nat} (hvacant : a.Vacant i) : ¬a.Occupied i := by
  obtain ⟨g, hslot⟩ := hvacant
  rintro ⟨g', x, hslot'⟩
  cases hslot.symm.trans hslot'

theorem get?_of_vacant {h : Handle} (hvacant : a.Vacant h.index) : a.get? h = none := by
  obtain ⟨generation, hslot⟩ := hvacant
  unfold get?
  rw [hslot]
  simp

theorem get?_of_size_le {h : Handle} (hsize : a.slots.size ≤ h.index) : a.get? h = none := by
  unfold get?
  rw [Array.getElem?_eq_none hsize]

/-- The free list names each vacant slot once and nothing else. -/
structure Sound : Prop where
  nodup : a.free.Nodup
  mem_free_iff : ∀ i, i ∈ a.free ↔ a.Vacant i

theorem sound_empty : Sound ({} : Arena α) :=
  ⟨List.nodup_nil, fun i => by simp [Vacant]⟩

/-! ### Changing a value -/

theorem get?_modify (h g : Handle) (f : α → α) :
    (a.modify h f).get? g = if g = h then (a.get? g).map f else a.get? g := by
  obtain ⟨slots, free⟩ := a
  obtain ⟨index, generation⟩ := h
  obtain ⟨index', generation'⟩ := g
  simp only [modify, get?, Array.getElem?_modify, Handle.mk.injEq]
  by_cases hindex : index = index'
  · subst hindex
    cases hslot : slots[index]? with
    | none => simp
    | some s =>
        by_cases hs : s.generation = generation
        · by_cases hg : generation = generation'
          · simp [hs, hg]
          · simp [hs, hg, Ne.symm hg]
        · by_cases hg : generation' = generation
          · simp [hs, hg]
          · simp [hs, hg]
  · simp [hindex, Ne.symm hindex]

theorem vacant_modify (h : Handle) (f : α → α) (i : Nat) :
    (a.modify h f).Vacant i ↔ a.Vacant i := by
  obtain ⟨slots, free⟩ := a
  simp only [modify, Vacant, Array.getElem?_modify]
  by_cases hindex : h.index = i
  · cases hslot : slots[i]? with
    | none => simp [hindex]
    | some s =>
        obtain ⟨generation, content⟩ := s
        by_cases hs : generation = h.generation
        · simp [hindex, hs]
        · simp [hindex, hs]
  · simp [hindex]

theorem generation_modify (h : Handle) (f : α → α) (i : Nat) :
    (a.modify h f).generation i = a.generation i := by
  obtain ⟨slots, free⟩ := a
  simp only [modify, generation, Array.getElem?_modify]
  by_cases hindex : h.index = i
  · cases slots[i]? with
    | none => simp [hindex]
    | some s => by_cases hs : s.generation = h.generation <;> simp [hindex, hs]
  · simp [hindex]

variable {a}

/-- One arena comes from the other by changes of values. -/
inductive Modified (a : Arena α) : Arena α → Prop where
  | refl : Modified a a
  | modify {b : Arena α} (h : Handle) (f : α → α) : Modified a b → Modified a (b.modify h f)

namespace Modified

variable {b : Arena α}

theorem trans {c : Arena α} (hb : a.Modified b) (hc : b.Modified c) : a.Modified c := by
  induction hc with
  | refl => exact hb
  | modify h f _ ih => exact .modify h f ih

theorem generation (hb : a.Modified b) (i : Nat) : b.generation i = a.generation i := by
  induction hb with
  | refl => rfl
  | @modify b h f _ ih => exact (b.generation_modify h f i).trans ih

theorem size_slots (hb : a.Modified b) : b.slots.size = a.slots.size := by
  induction hb with
  | refl => rfl
  | modify h f _ ih => exact Array.size_modify.trans ih

theorem sound (hb : a.Modified b) (hsound : a.Sound) : b.Sound := by
  induction hb with
  | refl => exact hsound
  | @modify b h f _ ih =>
      exact ⟨ih.nodup, fun i => (ih.mem_free_iff i).trans (b.vacant_modify h f i).symm⟩

end Modified

/-! ### Adding a value -/

/-- The handle of a new value resolved to nothing before. -/
theorem Sound.get?_insert_fresh (hsound : a.Sound) (x : α) : a.get? (a.insert x).1 = none := by
  obtain ⟨slots, free⟩ := a
  cases free with
  | nil => exact get?_of_size_le _ (Nat.le_refl _)
  | cons i free => exact get?_of_vacant _ ((hsound.mem_free_iff i).mp List.mem_cons_self)

theorem Sound.get?_insert (hsound : a.Sound) (x : α) (g : Handle) :
    (a.insert x).2.get? g = if g = (a.insert x).1 then some x else a.get? g := by
  obtain ⟨slots, free⟩ := a
  obtain ⟨index, generation⟩ := g
  cases free with
  | nil =>
      simp only [insert, get?, Array.getElem?_push, Handle.mk.injEq]
      by_cases hindex : index = slots.size
      · subst hindex
        by_cases hgeneration : generation = 0
        · simp [hgeneration]
        · simp [hgeneration, Ne.symm hgeneration]
      · simp [hindex]
  | cons i free =>
      obtain ⟨old, hold⟩ := (hsound.mem_free_iff i).mp List.mem_cons_self
      simp only at hold
      simp only [insert, get?, Array.getElem?_modify, Handle.mk.injEq]
      by_cases hindex : i = index
      · subst hindex
        by_cases hgeneration : generation = old
        · simp [hold, hgeneration]
        · simp [hold, hgeneration, Ne.symm hgeneration]
      · simp [hindex, Ne.symm hindex]

theorem Sound.insert (hsound : a.Sound) (x : α) : (a.insert x).2.Sound := by
  obtain ⟨slots, free⟩ := a
  cases free with
  | nil =>
      refine ⟨List.nodup_nil, fun i => ?_⟩
      have hold := hsound.mem_free_iff i
      simp only [Vacant] at hold
      simp only [insert, Vacant, Array.getElem?_push, hold]
      by_cases hindex : i = slots.size
      · simp [hindex]
      · simp [hindex]
  | cons j free =>
      refine ⟨(List.nodup_cons.mp hsound.nodup).2, fun i => ?_⟩
      have hnotMem := (List.nodup_cons.mp hsound.nodup).1
      have hold := hsound.mem_free_iff i
      simp only [Vacant, List.mem_cons] at hold
      simp only [insert, Vacant, Array.getElem?_modify]
      by_cases hindex : j = i
      · subst hindex
        simp [hnotMem]
      · simpa [hindex, Ne.symm hindex] using hold

/-- A new value is put into a slot that held none. -/
theorem Sound.not_occupied_insert (hsound : a.Sound) (x : α) : ¬a.Occupied (a.insert x).1.index := by
  obtain ⟨slots, free⟩ := a
  cases free with
  | nil => simp [Arena.insert, Occupied]
  | cons i free => exact not_occupied_of_vacant _ ((hsound.mem_free_iff i).mp List.mem_cons_self)

/-- The handle of a new value is of the generation that its slot has reached. -/
theorem generation_fst_insert (x : α) :
    a.generation (a.insert x).1.index = (a.insert x).1.generation := by
  obtain ⟨slots, free⟩ := a
  cases free with
  | nil => simp [insert, generation]
  | cons i free => rfl

theorem generation_insert (x : α) (i : Nat) : (a.insert x).2.generation i = a.generation i := by
  obtain ⟨slots, free⟩ := a
  cases free with
  | nil =>
      simp only [insert, generation, Array.getElem?_push]
      by_cases hindex : i = slots.size
      · simp [hindex]
      · simp [hindex]
  | cons j free =>
      simp only [insert, generation, Array.getElem?_modify]
      by_cases hindex : j = i
      · cases slots[i]? <;> simp [hindex]
      · simp [hindex]

/-! ### Taking values out -/

theorem exists_erase_of_get? {h : Handle} {x : α} (hx : a.get? h = some x) :
    ∃ a', a.erase h = some (x, a') := by
  unfold erase
  rw [hx]
  exact ⟨_, rfl⟩

/-- A value is taken out of the slot that holds it, and the slot becomes vacant. -/
theorem eq_of_erase {h : Handle} {x : α} {a' : Arena α} (ha : a.erase h = some (x, a')) :
    a.slots[h.index]? = some ⟨h.generation, some x⟩ ∧
      a' = ⟨a.slots.modify h.index Slot.vacate, h.index :: a.free⟩ := by
  unfold erase at ha
  cases hx : a.get? h with
  | none => simp [hx] at ha
  | some y =>
      simp only [hx, Option.some.injEq, Prod.mk.injEq] at ha
      obtain ⟨rfl, rfl⟩ := ha
      exact ⟨a.get?_eq_some_iff.mp hx, rfl⟩

theorem get?_of_erase {h : Handle} {x : α} {a' : Arena α} (ha : a.erase h = some (x, a'))
    (g : Handle) : a'.get? g = if g = h then none else a.get? g := by
  obtain ⟨hx, rfl⟩ := eq_of_erase ha
  obtain ⟨index, generation⟩ := h
  obtain ⟨index', generation'⟩ := g
  simp only [get?, Array.getElem?_modify, Handle.mk.injEq]
  by_cases hindex : index = index'
  · subst hindex
    by_cases hgeneration : generation' = generation
    · simp [hx, hgeneration, Slot.vacate]
    · simp [hx, hgeneration, Ne.symm hgeneration, Slot.vacate]
  · simp [hindex, Ne.symm hindex]

theorem Sound.of_erase (hsound : a.Sound) {h : Handle} {x : α} {a' : Arena α}
    (ha : a.erase h = some (x, a')) : a'.Sound := by
  obtain ⟨hx, rfl⟩ := eq_of_erase ha
  have hnotMem : h.index ∉ a.free := by
    intro hmem
    obtain ⟨generation, hvacant⟩ := (hsound.mem_free_iff _).mp hmem
    simp [hx] at hvacant
  refine ⟨List.nodup_cons.mpr ⟨hnotMem, hsound.nodup⟩, fun i => ?_⟩
  have hold := hsound.mem_free_iff i
  simp only [Vacant] at hold
  simp only [Vacant, Array.getElem?_modify, List.mem_cons, hold]
  by_cases hindex : h.index = i
  · subst hindex
    simp [hx, Slot.vacate]
  · simp [hindex, Ne.symm hindex]

/-- A slot that gives up its value moves on to the next generation. -/
theorem generation_of_erase {h : Handle} {x : α} {a' : Arena α} (ha : a.erase h = some (x, a'))
    (i : Nat) : a'.generation i = a.generation i + if h.index = i then 1 else 0 := by
  obtain ⟨hx, rfl⟩ := eq_of_erase ha
  simp only [generation, Array.getElem?_modify]
  by_cases hindex : h.index = i
  · subst hindex
    simp [hx, Slot.vacate]
  · simp [hindex]

/-- A slot that gives up its value stays a slot. -/
theorem size_slots_of_erase {h : Handle} {x : α} {a' : Arena α} (ha : a.erase h = some (x, a')) :
    a'.slots.size = a.slots.size := by
  obtain ⟨-, rfl⟩ := eq_of_erase ha
  exact Array.size_modify

theorem size_slots_clear (a : Arena α) : a.clear.slots.size = a.slots.size := by
  obtain ⟨slots, free⟩ := a
  exact Array.size_map

theorem get?_clear (g : Handle) : a.clear.get? g = none := by
  obtain ⟨slots, free⟩ := a
  simp only [clear, get?, Array.getElem?_map]
  cases slots[g.index]? with
  | none => rfl
  | some s => obtain ⟨generation, _ | x⟩ := s <;> simp [Slot.vacate]

/-- Only the slots that held a value move on. -/
theorem generation_clear (i : Nat) :
    a.clear.generation i = a.generation i + if a.Occupied i then 1 else 0 := by
  obtain ⟨slots, free⟩ := a
  simp only [clear, generation, Array.getElem?_map]
  cases hslot : slots[i]? with
  | none => simp [Occupied, hslot]
  | some s => obtain ⟨g, _ | x⟩ := s <;> simp [Occupied, hslot, Slot.vacate]

theorem sound_clear : a.clear.Sound := by
  obtain ⟨slots, free⟩ := a
  refine ⟨List.nodup_reverse.mpr List.nodup_range, fun i => ?_⟩
  simp only [clear, List.mem_reverse, List.mem_range, Vacant, Array.getElem?_map]
  by_cases hindex : i < slots.size
  · rw [Array.getElem?_eq_getElem hindex]
    obtain ⟨generation, _ | x⟩ := slots[i] <;> simp [hindex, Slot.vacate]
  · rw [Array.getElem?_eq_none (Nat.le_of_not_lt hindex)]
    simp [hindex]

/-! ### Counting slots -/

/-- A list that names, once each, the places of the elements with a property counts them. -/
theorem length_eq_countP {β : Type u} {l : List β} {p : β → Bool} {places : List Nat}
    (hnodup : places.Nodup) (hmem : ∀ i, i ∈ places ↔ ∃ x, l[i]? = some x ∧ p x = true) :
    places.length = l.countP p := by
  have hplaces : ((l.zipIdx.filter fun q => p q.1).map Prod.snd).Nodup := by
    apply List.Nodup.sublist (List.filter_sublist.map Prod.snd)
    rw [List.zipIdx_map_snd]
    exact List.nodup_range'
  have hperm : places.Perm ((l.zipIdx.filter fun q => p q.1).map Prod.snd) := by
    apply (List.perm_ext_iff_of_nodup hnodup hplaces).mpr
    intro i
    simp [hmem, List.mk_mem_zipIdx_iff_getElem?]
  calc places.length = (l.zipIdx.filter fun q => p q.1).length := by simpa using hperm.length_eq
    _ = l.zipIdx.countP (p ∘ Prod.fst) := List.countP_eq_length_filter.symm
    _ = (l.zipIdx.map Prod.fst).countP p := List.countP_map.symm
    _ = l.countP p := by rw [List.zipIdx_map_fst]

theorem occupied_eq_countP (a : Arena α) :
    a.occupied = a.slots.toList.countP fun s => s.content.isSome := by
  rw [occupied, Array.countP_toList]

/-- Different slots that are the occupied ones are as many as these. -/
theorem length_eq_occupied {a : Arena α} {places : List Nat} (hnodup : places.Nodup)
    (hmem : ∀ i, i ∈ places ↔ a.Occupied i) : places.length = a.occupied := by
  rw [occupied_eq_countP]
  apply length_eq_countP hnodup
  intro i
  rw [hmem, Array.getElem?_toList]
  constructor
  · rintro ⟨generation, x, hslot⟩
    exact ⟨_, hslot, rfl⟩
  · rintro ⟨⟨generation, content⟩, hslot, hcontent⟩
    obtain ⟨x, rfl⟩ := Option.isSome_iff_exists.mp hcontent
    exact ⟨generation, x, hslot⟩

/-- Different slots that are occupied, as many as there are, are all of them. -/
theorem mem_of_occupied {a : Arena α} {places : List Nat} (hnodup : places.Nodup)
    (hplaces : ∀ i ∈ places, a.Occupied i) (hlength : places.length = a.occupied) {i : Nat}
    (hi : a.Occupied i) : i ∈ places := by
  have hmem (i : Nat) : i ∈ (List.range a.slots.size).filter (a.Occupied ·) ↔ a.Occupied i := by
    rw [List.mem_filter, List.mem_range, decide_eq_true_iff]
    apply and_iff_right_of_imp
    rintro ⟨generation, x, hslot⟩
    exact (Array.getElem?_eq_some_iff.mp hslot).1
  have hcount := length_eq_occupied (List.nodup_range.filter _) hmem
  have hsubset : places ⊆ (List.range a.slots.size).filter (a.Occupied ·) :=
    fun i hi => (hmem i).mpr (hplaces i hi)
  have hperm := (hnodup.subperm hsubset).perm_of_length_le (by omega)
  exact hperm.mem_iff.mpr ((hmem i).mpr hi)

def vacant (a : Arena α) : Nat := a.slots.countP fun s => s.content.isNone

theorem vacant_eq_countP (a : Arena α) :
    a.vacant = a.slots.toList.countP fun s => s.content.isNone := by
  rw [vacant, Array.countP_toList]

theorem occupied_add_vacant (a : Arena α) : a.occupied + a.vacant = a.slots.size := by
  rw [occupied_eq_countP, vacant_eq_countP, ← Array.length_toList,
    List.length_eq_countP_add_countP fun s : Slot α => s.content.isSome]
  congr 1
  apply List.countP_congr
  rintro ⟨generation, _ | x⟩ - <;> simp

theorem Sound.length_free (hsound : a.Sound) : a.free.length = a.vacant := by
  rw [vacant_eq_countP]
  apply length_eq_countP hsound.nodup
  intro i
  rw [hsound.mem_free_iff, Vacant, Array.getElem?_toList]
  constructor
  · rintro ⟨generation, hslot⟩
    exact ⟨_, hslot, rfl⟩
  · rintro ⟨⟨generation, content⟩, hslot, hcontent⟩
    have hvacant : content = none := Option.isNone_iff_eq_none.mp hcontent
    exact ⟨generation, hvacant ▸ hslot⟩

/-- Every slot is occupied or on the free list. -/
theorem Sound.occupied_add_length_free (hsound : a.Sound) :
    a.occupied + a.free.length = a.slots.size := by
  rw [hsound.length_free, occupied_add_vacant]

/-- A new slot is made only if all of them are occupied. -/
theorem Sound.size_slots_insert (hsound : a.Sound) (x : α) :
    (a.insert x).2.slots.size = max a.slots.size (a.occupied + 1) := by
  have hcount := hsound.occupied_add_length_free
  obtain ⟨slots, free⟩ := a
  cases free with
  | nil =>
      have hfull : Arena.occupied ⟨slots, []⟩ = slots.size := hcount
      rw [hfull, Arena.insert, Array.size_push]
      exact (Nat.max_eq_right (Nat.le_succ _)).symm
  | cons i free =>
      have hroom : Arena.occupied ⟨slots, i :: free⟩ + 1 ≤ slots.size := by
        simp only [List.length_cons] at hcount
        omega
      rw [Arena.insert, Array.size_modify]
      exact (Nat.max_eq_left hroom).symm

end RespCache.Arena
